import ClassCoverage.Dynamic

/-! The tables of a TOML document while it is read. A table is opened at most once by a header of
its own, and dotted keys never reach into a table that a header opened. -/
namespace ClassCoverage.Toml

/-- How a table came to be: by its own header, by the header of a table below it, or by a dotted
key. -/
inductive Origin where
  | header
  | implied
  | dotted
  deriving DecidableEq, Repr

/-- What a key stands for. Of the tables in a list only the last can still grow. -/
inductive Node where
  | leaf (value : Dynamic)
  | table (origin : Origin) (fields : List (String × Node))
  | tables (finished : List Dynamic) (last : List (String × Node))

abbrev Fields := List (String × Node)

mutual

def Node.toDynamic : Node → Dynamic
  | .leaf value => value
  | .table _ fields => .table (finish fields) none
  | .tables finished last => .list (finished ++ [.table (finish last) none]) none

/-- The fields in the order in which they came to be. -/
def finish : List (String × Node) → List (String × Dynamic)
  | [] => []
  | (key, node) :: rest => (key, node.toDynamic) :: finish rest

end

namespace Fields

def find? (key : String) (fields : Fields) : Option Node := fields.lookup key

def append (key : String) (node : Node) (fields : Fields) : Fields := fields ++ [(key, node)]

def replace (key : String) (node : Node) (fields : Fields) : Fields :=
  fields.map fun field => if field.1 = key then (key, node) else field

def erase (key : String) (fields : Fields) : Fields := fields.filter fun field => field.1 ≠ key

/-- Changes the table at the end of a path, making the missing tables on the way. -/
def alter (byDots : Bool) (change : Origin → Fields → Option Fields) :
    (path : List String) → Origin → Fields → Option Fields
  | [], origin, fields => change origin fields
  | key :: path, _, fields =>
    match fields.find? key with
    | none => do
      let origin := if byDots then Origin.dotted else .implied
      return fields.append key (.table origin (← alter byDots change path origin []))
    | some (.table origin inner) =>
      if byDots && origin = .header then none
      else do return fields.replace key (.table origin (← alter byDots change path origin inner))
    | some (.tables finished last) => do
      return fields.replace key (.tables finished (← alter byDots change path .header last))
    | some (.leaf _) => none

/-- Opens the table of a header, which may stand behind those of the tables below it. -/
def openTable (path : List String) (key : String) (fields : Fields) : Option Fields :=
  alter false (fun _ fields =>
    match fields.find? key with
    | none => some (fields.append key (.table .header []))
    | some (.table .implied inner) => some ((fields.erase key).append key (.table .header inner))
    | some _ => none) path .header fields

/-- Opens one more table of a list. -/
def openElement (path : List String) (key : String) (fields : Fields) : Option Fields :=
  alter false (fun _ fields =>
    match fields.find? key with
    | none => some (fields.append key (.tables [] []))
    | some (.tables finished last) =>
      some (fields.replace key (.tables (finished ++ [.table (finish last) none]) []))
    | some _ => none) path .header fields

/-- Sets a key that is not set yet. Keys without dots do not reach into a table made by dots, and
dotted keys reach into no other. -/
def assign (path : List String) (key : String) (value : Dynamic) (fields : Fields) :
    Option Fields :=
  alter true (fun origin fields =>
    if (origin == .dotted) == path.isEmpty || (fields.find? key).isSome then none
    else some (fields.append key (.leaf value))) path .header fields

/-- Sets a key of the table that the last header opened. -/
def assignWithin (header path : List String) (key : String) (value : Dynamic) (fields : Fields) :
    Option Fields :=
  alter false (fun _ fields => fields.assign path key value) header .header fields

end Fields
end ClassCoverage.Toml
