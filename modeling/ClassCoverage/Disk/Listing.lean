import ClassCoverage.Bytes

/-! Directory trees. A listing holds the files and directories of one directory in name order;
a place in a tree is the list of names that leads to it. -/
namespace ClassCoverage

inductive Listing where
  | empty
  | file (name : String) (content : Bytes) (rest : Listing)
  | directory (name : String) (inner : Listing) (rest : Listing)
  deriving Inhabited

inductive Node where
  | file (content : Bytes)
  | directory (listing : Listing)
  deriving Inhabited

abbrev Place := List String

-- Found once, for all definitions that look for a place in a list.
instance : LawfulBEq Place := inferInstance

namespace Listing

def names : Listing → List String
  | empty => []
  | file name _ rest => name :: rest.names
  | directory name _ rest => name :: rest.names

/-- The names in a directory, and which of them are those of directories. -/
def entries : Listing → List (String × Bool)
  | empty => []
  | file name _ rest => (name, false) :: rest.entries
  | directory name _ rest => (name, true) :: rest.entries

/-- How many directories lie within each other. -/
def height : Listing → Nat
  | empty => 0
  | file _ _ rest => rest.height
  | directory _ inner rest => max (inner.height + 1) rest.height

def add (name : String) : Node → Listing → Listing
  | .file content, rest => file name content rest
  | .directory inner, rest => directory name inner rest

def find? (sought : String) : Listing → Option Node
  | empty => none
  | file name content rest => if name = sought then some (.file content) else rest.find? sought
  | directory name inner rest => if name = sought then some (.directory inner)
    else rest.find? sought

/-- Puts a node at its place in name order, in the stead of one of the same name. -/
def set (new : String) (node : Node) : Listing → Listing
  | empty => add new node empty
  | file name content rest =>
    if new < name then add new node (file name content rest)
    else if name = new then add new node rest
    else file name content (rest.set new node)
  | directory name inner rest =>
    if new < name then add new node (directory name inner rest)
    else if name = new then add new node rest
    else directory name inner (rest.set new node)

def erase (old : String) : Listing → Listing
  | empty => empty
  | file name content rest => if name = old then rest else file name content (rest.erase old)
  | directory name inner rest => if name = old then rest else directory name inner (rest.erase old)

/-- What is at a place. The empty place is the directory itself. -/
def at? (listing : Listing) : Place → Option Node
  | [] => some (.directory listing)
  | name :: place =>
    match listing.find? name with
    | some (.directory inner) => inner.at? place
    | some (.file content) => if place = [] then some (.file content) else none
    | none => none

/-- Puts a node at a place whose directory is there already. -/
def setAt (listing : Listing) (node : Node) : Place → Listing
  | [] => listing
  | [name] => listing.set name node
  | name :: place =>
    match listing.find? name with
    | some (.directory inner) => listing.set name (.directory (inner.setAt node place))
    | _ => listing

def eraseAt (listing : Listing) : Place → Listing
  | [] => listing
  | [name] => listing.erase name
  | name :: place =>
    match listing.find? name with
    | some (.directory inner) => listing.set name (.directory (inner.eraseAt place))
    | _ => listing

/-- Names increase within every directory. -/
def Ordered : Listing → Prop
  | empty => True
  | file name _ rest => (∀ later ∈ rest.names, name < later) ∧ rest.Ordered
  | directory name inner rest => (∀ later ∈ rest.names, name < later) ∧ inner.Ordered ∧ rest.Ordered

end Listing

def Node.Ordered : Node → Prop
  | .file _ => True
  | .directory listing => listing.Ordered

namespace Listing

/-! Whatever only looks at a node as a whole need not tell files from directories: a listing is
empty or has an entry added in front of another one. -/

@[elab_as_elim] theorem entries_induction {motive : Listing → Prop} (empty : motive .empty)
    (add : ∀ name node rest, motive rest → motive (add name node rest)) (listing : Listing) :
    motive listing := by
  induction listing with
  | empty => exact empty
  | file name content rest ih => exact add name (.file content) rest ih
  | directory name inner rest _ ih => exact add name (.directory inner) rest ih

theorem names_add (name : String) (node : Node) (rest : Listing) :
    (add name node rest).names = name :: rest.names := by
  cases node <;> rfl

theorem find?_add (new : String) (node : Node) (rest : Listing) (name : String) :
    (add new node rest).find? name = if new = name then some node else rest.find? name := by
  cases node <;> rfl

theorem set_add (name new : String) (old node : Node) (rest : Listing) :
    (add name old rest).set new node =
      if new < name then add new node (add name old rest)
      else if name = new then add new node rest
      else add name old (rest.set new node) := by
  cases old <;> rfl

theorem erase_add (name old : String) (node : Node) (rest : Listing) :
    (add name node rest).erase old = if name = old then rest
    else add name node (rest.erase old) := by
  cases node <;> rfl

theorem ordered_add_iff {name : String} {node : Node} {rest : Listing} :
    (add name node rest).Ordered ↔
      (∀ later ∈ rest.names, name < later) ∧ node.Ordered ∧ rest.Ordered := by
  cases node with
  | file content => simp [add, Ordered, Node.Ordered]
  | directory inner => exact Iff.rfl

theorem ordered_add {name : String} {node : Node} {rest : Listing} (inner : node.Ordered)
    (least : ∀ later ∈ rest.names, name < later) (sorted : rest.Ordered) :
    (add name node rest).Ordered :=
  ordered_add_iff.mpr ⟨least, inner, sorted⟩

theorem mem_names_set {new name : String} {node : Node} {listing : Listing}
    (member : name ∈ (listing.set new node).names) : name = new ∨ name ∈ listing.names := by
  induction listing using entries_induction with
  | empty => simpa [set, names_add, names] using member
  | add other entry rest ih =>
    rw [set_add] at member
    rw [names_add]
    split at member
    · simpa [names_add] using member
    · split at member
      · rw [names_add] at member
        exact (List.mem_cons.mp member).imp_right (List.mem_cons_of_mem _)
      · rw [names_add] at member
        rcases List.mem_cons.mp member with rfl | later
        · exact .inr (List.mem_cons_self ..)
        · exact (ih later).imp_right (List.mem_cons_of_mem _)

theorem least_cons {new name : String} {names : List String} (smaller : new < name)
    (least : ∀ later ∈ names, name < later) : ∀ later ∈ name :: names, new < later := by
  intro later member
  rcases List.mem_cons.mp member with rfl | behind
  · exact smaller
  · exact String.lt_trans smaller (least later behind)

private theorem least_set {new name : String} {node : Node} {rest : Listing}
    (notSmaller : ¬ new < name) (different : ¬ name = new)
    (least : ∀ later ∈ rest.names, name < later) :
    ∀ later ∈ (rest.set new node).names, name < later := by
  intro later member
  rcases mem_names_set member with rfl | old
  · exact Std.lt_of_le_of_ne (Std.not_lt.mp notSmaller) different
  · exact least later old

theorem ordered_set {new : String} {node : Node} {listing : Listing} (inner : node.Ordered)
    (sorted : listing.Ordered) : (listing.set new node).Ordered := by
  induction listing using entries_induction with
  | empty => exact ordered_add inner (by simp [names]) trivial
  | add name old rest ih =>
    obtain ⟨least, below, behind⟩ := ordered_add_iff.mp sorted
    rw [set_add]
    split
    · rename_i smaller
      have first : ∀ later ∈ (add name old rest).names, new < later := by
        rw [names_add]
        exact least_cons smaller least
      exact ordered_add inner first sorted
    · split
      · rename_i same
        exact ordered_add inner (same ▸ least) behind
      · rename_i notSmaller different
        exact ordered_add below (least_set notSmaller different least) (ih behind)

theorem mem_names_erase {old name : String} {listing : Listing}
    (member : name ∈ (listing.erase old).names) : name ∈ listing.names := by
  induction listing using entries_induction with
  | empty => exact member
  | add other node rest ih =>
    rw [erase_add] at member
    rw [names_add]
    split at member
    · exact List.mem_cons_of_mem _ member
    · rw [names_add] at member
      rcases List.mem_cons.mp member with rfl | later
      · exact List.mem_cons_self ..
      · exact List.mem_cons_of_mem _ (ih later)

theorem ordered_erase {old : String} {listing : Listing} (sorted : listing.Ordered) :
    (listing.erase old).Ordered := by
  induction listing using entries_induction with
  | empty => trivial
  | add name node rest ih =>
    obtain ⟨least, below, behind⟩ := ordered_add_iff.mp sorted
    rw [erase_add]
    split
    · exact behind
    · exact ordered_add below (fun later member => least later (mem_names_erase member)) (ih behind)

theorem ordered_find? {sought : String} {listing : Listing} {node : Node} (sorted : listing.Ordered)
    (found : listing.find? sought = some node) : node.Ordered := by
  induction listing using entries_induction with
  | empty => cases found
  | add name entry rest ih =>
    obtain ⟨-, below, behind⟩ := ordered_add_iff.mp sorted
    rw [find?_add] at found
    split at found
    · cases found
      exact below
    · exact ih behind found

theorem ordered_at? {place : Place} {listing : Listing} {node : Node} (sorted : listing.Ordered)
    (found : listing.at? place = some node) : node.Ordered := by
  induction place generalizing listing with
  | nil => cases found; exact sorted
  | cons name place ih =>
    simp only [at?] at found
    split at found
    · rename_i inner here
      exact ih (ordered_find? sorted here) found
    · split at found
      · cases found; trivial
      · simp at found
    · simp at found

/-- What is done to a directory keeps the order around it if it keeps that inside. -/
private theorem ordered_inside {name : String} {change : Listing → Listing} {listing : Listing}
    (keeps : ∀ inner : Listing, inner.Ordered → (change inner).Ordered) (sorted : listing.Ordered) :
    (match listing.find? name with
      | some (.directory inner) => listing.set name (.directory (change inner))
      | _ => listing).Ordered := by
  split
  · rename_i inner here
    have changed : Node.Ordered (.directory (change inner)) :=
      keeps inner (ordered_find? sorted here)
    exact ordered_set changed sorted
  · exact sorted

theorem ordered_setAt {place : Place} {node : Node} {listing : Listing} (inner : node.Ordered)
    (sorted : listing.Ordered) : (listing.setAt node place).Ordered := by
  induction place generalizing listing with
  | nil => exact sorted
  | cons name place ih =>
    cases place with
    | nil => exact ordered_set inner sorted
    | cons next place => exact ordered_inside (fun _ below => ih below) sorted

theorem ordered_eraseAt {place : Place} {listing : Listing} (sorted : listing.Ordered) :
    (listing.eraseAt place).Ordered := by
  induction place generalizing listing with
  | nil => exact sorted
  | cons name place ih =>
    cases place with
    | nil => exact ordered_erase sorted
    | cons next place => exact ordered_inside (fun _ below => ih below) sorted

end Listing
end ClassCoverage
