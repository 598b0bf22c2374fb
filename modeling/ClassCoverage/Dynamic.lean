import ClassCoverage.Text
import ClassCoverage.Text.Quoted

/-! Values of data formats, and reading them at an expected shape. Reading goes through a value in
the order of its text, so the first fault of the text is the one reported. -/
namespace ClassCoverage

/-- A value as far as its text could be read. A list or table that ends in a fault holds what came
before it; a value that is `flawed` has an end, but nothing can be made of it. -/
inductive Dynamic where
  | null
  | boolean (value : Bool)
  | integer (value : Int)
  | float (shown : String)
  | text (value : String)
  | flawed (fault : String)
  | unread (fault : String)
  | list (items : List Dynamic) (fault : Option String)
  | table (fields : List (String × Dynamic)) (fault : Option String)
  deriving Inhabited

/-- Why a value does not have the expected shape. -/
inductive ShapeFault where
  | invalidType (found expected : String)
  | invalidValue (found expected : String)
  | invalidLength (length : Nat) (expected : String)
  | missingField (name : String)
  | unknownField (name : String) (known : List String)
  | duplicateField (name : String)
  | unreadable (fault : String)
  deriving DecidableEq, Repr

namespace ShapeFault

def inTicks (name : String) : String := "\x60" ++ name ++ "\x60"

/-- The names that would have been accepted. -/
def alternatives : List String → String
  | [] => "there are no fields"
  | [only] => "expected " ++ inTicks only
  | [first, second] => "expected " ++ inTicks first ++ " or " ++ inTicks second
  | names => "expected one of " ++ Text.join ", " (names.map inTicks)

def message : ShapeFault → String
  | invalidType found expected => s!"invalid type: {found}, expected {expected}"
  | invalidValue found expected => s!"invalid value: {found}, expected {expected}"
  | invalidLength length expected => s!"invalid length {length}, expected {expected}"
  | missingField name => "missing field " ++ inTicks name
  | unknownField name known => "unknown field " ++ inTicks name ++ ", " ++ alternatives known
  | duplicateField name => "duplicate field " ++ inTicks name
  | unreadable fault => fault

end ShapeFault

namespace Dynamic

def shown : Dynamic → String
  | null => "null"
  | boolean value => "boolean " ++ ShapeFault.inTicks (toString value)
  | integer value => "integer " ++ ShapeFault.inTicks (toString value)
  | float value => "floating point " ++ ShapeFault.inTicks value
  | text value => "string " ++ Text.quoted value
  | flawed _ => "nothing"
  | unread _ => "nothing"
  | list .. => "sequence"
  | table .. => "map"

/-- What is said of a value that should have been something else. -/
def misplaced {α : Type} (value : Dynamic) (expected : String) : Except ShapeFault α :=
  match value with
  | unread fault => .error (.unreadable fault)
  | flawed fault => .error (.unreadable fault)
  | _ => .error (.invalidType value.shown expected)

/-- A reader takes values of one shape. -/
abbrev Reader (α : Type) := Dynamic → Except ShapeFault α

def readText (expected : String) : Reader String
  | text value => .ok value
  | value => value.misplaced expected

def readBool : Reader Bool
  | boolean value => .ok value
  | value => value.misplaced "a boolean"

/-- Reads a whole number below `2 ^ bits`. -/
def readNat (bits : Nat) (expected : String) : Reader Nat
  | integer value =>
    if 0 ≤ value ∧ value < 2 ^ bits then .ok value.toNat
    else .error (.invalidValue (integer value).shown expected)
  | value => value.misplaced expected

/-- Null stands for nothing. -/
def readOption {α : Type} (read : Reader α) : Reader (Option α)
  | null => .ok none
  | value => (read value).map some

def readList {α : Type} (read : Reader α) : Reader (List α)
  | list items fault => do
    let values ← items.mapM read
    match fault with
    | some fault => throw (.unreadable fault)
    | none => return values
  | value => value.misplaced "a sequence"

/-- What becomes of a structure without one of its fields. An optional field may be left out of a
table, but not out of a list unless it has a default. -/
inductive Presence where
  | required
  | optional
  | defaulted
  deriving DecidableEq

/-- One field of a structure of type `σ`, which is read into the structure built so far. -/
structure Slot (σ : Type) where
  name : String
  presence : Presence
  read : σ → Reader σ

/-- How a structure is read. A list stands for a table with its values in field order; `surplus`
says what is wrong, if anything, with the values and the fault behind the last field of a list. -/
structure Shape (σ : Type) where
  title : String
  fields : List (Slot σ)
  start : σ
  refusesUnknown : Bool
  surplus : List Dynamic → Option String → Option String

namespace Shape

variable {σ : Type}

def names (shape : Shape σ) : List String := shape.fields.map Slot.name

/-- Reads the pairs of a table, remembering the names seen. -/
def readPairs (shape : Shape σ) :
    List (String × Dynamic) → List String → σ → Except ShapeFault (σ × List String)
  | [], seen, built => .ok (built, seen)
  | (name, value) :: rest, seen, built =>
    match shape.fields.find? fun field => field.name = name with
    | some field =>
      if name ∈ seen then .error (.duplicateField name)
      else do shape.readPairs rest (name :: seen) (← field.read built value)
    | none =>
      if shape.refusesUnknown then .error (.unknownField name shape.names)
      else shape.readPairs rest seen built

def elementCount (count : Nat) : String :=
  if count = 1 then s!"{count} element" else s!"{count} elements"

/-- Reads the values of a list into the fields in order. -/
def readItems (shape : Shape σ) (fault : Option String) :
    (index : Nat) → List (Slot σ) → List Dynamic → σ → Except ShapeFault σ
  | _, [], items, built =>
    match shape.surplus items fault with
    | some words => .error (.unreadable words)
    | none => .ok built
  | index, field :: fields, [], built =>
    match fault with
    | some fault => .error (.unreadable fault)
    | none =>
      if field.presence = .defaulted then shape.readItems fault (index + 1) fields [] built
      else .error (.invalidLength index
        (shape.title ++ " with " ++ elementCount shape.fields.length))
  | index, field :: fields, item :: items, built => do
    shape.readItems fault (index + 1) fields items (← field.read built item)

def read (shape : Shape σ) : Reader σ
  | .table fields fault => do
    let (built, seen) ← shape.readPairs fields [] shape.start
    match fault with
    | some fault => throw (.unreadable fault)
    | none =>
      match shape.fields.find? fun field => field.presence = .required && field.name ∉ seen with
      | some field => throw (.missingField field.name)
      | none => return built
  | .list items fault => shape.readItems fault 0 shape.fields items shape.start
  | value => value.misplaced shape.title

end Shape
end Dynamic
end ClassCoverage
