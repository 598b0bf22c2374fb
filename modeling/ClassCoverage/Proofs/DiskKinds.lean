import ClassCoverage.Disk

/-! What lies at the places of a disk. An operation on a file changes what lies at one place and
leaves every directory where it is. -/
namespace ClassCoverage

/-- What lies at a place, without what lies below it. -/
inductive Kind where
  | file (content : Bytes)
  | directory
  deriving DecidableEq, Repr

def Node.kind : Node → Kind
  | .file content => .file content
  | .directory _ => .directory

namespace Listing

def kind? (listing : Listing) (place : Place) : Option Kind := (listing.at? place).map Node.kind

end Listing

/-- What lies at a place below a node. -/
def Node.kindBelow : Node → Place → Option Kind
  | .file content, place => if place = [] then some (.file content) else none
  | .directory listing, place => listing.kind? place

/-- Files and empty directories have nothing below them. -/
def Node.IsLeaf : Node → Prop
  | .file _ => True
  | .directory listing => listing = .empty

theorem Node.kindBelow_nil (node : Node) : node.kindBelow [] = some node.kind := by
  cases node <;> rfl

theorem Node.kindBelow_cons_of_isLeaf {node : Node} (leaf : node.IsLeaf) (name : String)
    (place : Place) : node.kindBelow (name :: place) = none := by
  cases node with
  | file content => rfl
  | directory listing =>
    cases leaf
    rfl

namespace Listing

@[simp] theorem kind?_nil (listing : Listing) : listing.kind? [] = some .directory := rfl

theorem kind?_cons (listing : Listing) (name : String) (place : Place) :
    listing.kind? (name :: place) = (listing.find? name).bind (·.kindBelow place) := by
  unfold kind?
  rw [at?]
  cases listing.find? name with
  | none => rfl
  | some node => cases node with
    | directory inner => rfl
    | file content => by_cases last : place = [] <;> simp [last, Node.kind, Node.kindBelow]

theorem find?_set (listing : Listing) (new : String) (node : Node) (name : String) :
    (listing.set new node).find? name = if new = name then some node else listing.find? name := by
  induction listing using entries_induction with
  | empty => exact find?_add new node empty name
  | add other entry rest ih =>
    rw [set_add, find?_add]
    split
    · rw [find?_add, find?_add]
    · split
      · rename_i same
        rw [find?_add, same]
        by_cases here : new = name
        · simp [here]
        · simp [here]
      · rename_i different
        rw [find?_add, ih]
        by_cases here : other = name
        · have apart : ¬ new = name := fun same => different (here.trans same.symm)
          simp [here, apart]
        · simp [here]

theorem find?_eq_none_iff (listing : Listing) (name : String) :
    listing.find? name = none ↔ name ∉ listing.names := by
  induction listing using entries_induction with
  | empty => simp [find?, names]
  | add other node rest ih =>
    rw [find?_add, names_add]
    by_cases here : other = name
    · simp [here]
    · simp [here, Ne.symm here, ih]

/-- A name is gone once it is erased, since it stood only once. -/
theorem find?_erase {listing : Listing} (sorted : listing.Ordered) (old name : String) :
    (listing.erase old).find? name = if old = name then none else listing.find? name := by
  induction listing using entries_induction with
  | empty => simp [erase, find?]
  | add other node rest ih =>
    obtain ⟨least, -, behind⟩ := ordered_add_iff.mp sorted
    rw [erase_add, find?_add]
    split
    · rename_i same
      subst same
      by_cases here : other = name
      · subst here
        have absent : other ∉ rest.names := fun member => String.lt_irrefl _ (least other member)
        simp [(find?_eq_none_iff rest other).mpr absent]
      · simp [here]
    · rename_i different
      rw [find?_add]
      by_cases here : other = name
      · subst here
        simp [Ne.symm different]
      · simp [here, ih behind]

theorem at?_append {listing inner : Listing} {place : Place}
    (found : listing.at? place = some (.directory inner)) (below : Place) :
    listing.at? (place ++ below) = inner.at? below := by
  induction place generalizing listing with
  | nil => cases found; rfl
  | cons name place ih =>
    rw [at?] at found
    rw [List.cons_append, at?]
    cases here : listing.find? name with
    | none => simp [here] at found
    | some node => cases node with
      | file content => simp [here] at found
      | directory next =>
        simp only [here] at found ⊢
        exact ih found

/-- Only directories have something below them. -/
theorem kind?_of_append {listing : Listing} {place below : Place} {kind : Kind}
    (found : listing.kind? (place ++ below) = some kind) (deeper : below ≠ []) :
    listing.kind? place = some .directory := by
  induction place generalizing listing with
  | nil => rfl
  | cons name place ih =>
    rw [List.cons_append, kind?_cons] at found
    rw [kind?_cons]
    cases here : listing.find? name with
    | none => simp [here] at found
    | some node =>
      simp only [here, Option.bind_some] at found ⊢
      cases node with
      | directory inner => exact ih found
      | file content => simp [Node.kindBelow, deeper] at found

theorem kind?_dropLast {listing : Listing} {place : Place}
    (found : listing.kind? place = some .directory) :
    listing.kind? place.dropLast = some .directory := by
  by_cases root : place = []
  · subst root
    rfl
  · rw [← List.dropLast_concat_getLast root] at found
    exact kind?_of_append found (by simp)

private theorem kindBelow_of_not_directory {listing : Listing} {name next : String} {place : Place}
    (free : listing.kind? [name] ≠ some .directory) :
    (listing.find? name).bind (·.kindBelow (next :: place)) = none := by
  rw [kind?_cons] at free
  cases here : listing.find? name with
  | none => rfl
  | some node => cases node with
    | file content => rfl
    | directory inner => simp [here, Node.kindBelow] at free

/-- A directory that is put in the stead of another one has its own things below it. -/
private theorem kind?_set_directory (listing inner : Listing) (name head : String) (tail : Place) :
    (listing.set name (.directory inner)).kind? (head :: tail) =
      if name = head then inner.kind? tail else listing.kind? (head :: tail) := by
  rw [kind?_cons, find?_set, kind?_cons]
  split <;> rfl

/-- Putting a leaf at a free place of a directory changes what lies at this place only. -/
theorem kind?_setAt {listing : Listing} {place : Place} {node : Node} (leaf : node.IsLeaf)
    (below : place ≠ []) (parent : listing.kind? place.dropLast = some .directory)
    (free : listing.kind? place ≠ some .directory) (other : Place) :
    (listing.setAt node place).kind? other =
      if other = place then some node.kind else listing.kind? other := by
  induction place generalizing listing other with
  | nil => exact absurd rfl below
  | cons name place ih =>
    cases other with
    | nil => simp
    | cons head tail =>
      cases place with
      | nil =>
        rw [setAt, kind?_cons, find?_set, kind?_cons]
        by_cases same : name = head
        · subst same
          cases tail with
          | nil => simp [Node.kindBelow_nil]
          | cons next tail =>
            simp [Node.kindBelow_cons_of_isLeaf leaf, kindBelow_of_not_directory free]
        · simp [same, Ne.symm same]
      | cons next place =>
        rw [List.dropLast_cons_of_ne_nil (by simp), kind?_cons] at parent
        rw [kind?_cons] at free
        cases here : listing.find? name with
        | none => simp [here] at parent
        | some found => cases found with
          | file content => cases place <;> simp [here, Node.kindBelow] at parent free
          | directory inner =>
            simp only [here, Option.bind_some, Node.kindBelow] at parent free
            rw [setAt, here]
            · simp only [kind?_set_directory, kind?_cons listing]
              by_cases same : name = head
              · subst same
                simp [here, Node.kindBelow, ih (by simp) parent free]
              · simp [same, Ne.symm same]
            · simp

/-- Erasing what is no directory changes what lies at this place only. -/
theorem kind?_eraseAt {listing : Listing} (sorted : listing.Ordered) {place : Place}
    (below : place ≠ []) (free : listing.kind? place ≠ some .directory) (other : Place) :
    (listing.eraseAt place).kind? other = if other = place then none else listing.kind? other := by
  induction place generalizing listing other with
  | nil => exact absurd rfl below
  | cons name place ih =>
    cases other with
    | nil => simp
    | cons head tail =>
      cases place with
      | nil =>
        rw [eraseAt, kind?_cons, find?_erase sorted, kind?_cons]
        by_cases same : name = head
        · subst same
          cases tail with
          | nil => simp
          | cons next tail => simp [kindBelow_of_not_directory free]
        · simp [same, Ne.symm same]
      | cons next place =>
        rw [kind?_cons] at free
        rw [eraseAt]
        · cases here : listing.find? name with
          | none => 
            by_cases same : head :: tail = name :: next :: place
            · cases same
              simp [kind?_cons, here]
            · simp [same]
          | some found => cases found with
            | file content =>
              by_cases same : head :: tail = name :: next :: place
              · cases same
                simp [kind?_cons, here, Node.kindBelow]
              · simp [same]
            | directory inner =>
              have inside : inner.Ordered := ordered_find? sorted here
              simp only [here, Option.bind_some, Node.kindBelow] at free
              simp only [kind?_set_directory, kind?_cons listing]
              by_cases same : name = head
              · subst same
                simp [here, Node.kindBelow, ih inside (by simp) free]
              · simp [same, Ne.symm same]
        all_goals simp

theorem find?_of_lt {name : String} {listing : Listing}
    (above : ∀ later ∈ listing.names, name < later) :
    listing.find? name = none := by
  rw [find?_eq_none_iff]
  intro member
  exact String.lt_irrefl _ (above name member)

theorem exists_add (listing : Listing) :
    listing = empty ∨ ∃ name node rest, listing = add name node rest := by
  induction listing using entries_induction with
  | empty => exact .inl rfl
  | add name node rest => exact .inr ⟨name, node, rest, rfl⟩

theorem isSome_find?_of_kind? {a b : Listing} (same : ∀ place, a.kind? place = b.kind? place)
    (name : String) : (a.find? name).isSome = (b.find? name).isSome := by
  have here := congrArg Option.isSome (same [name])
  rw [kind?_cons, kind?_cons] at here
  cases left : a.find? name <;> cases right : b.find? name <;>
    simp [left, right, Node.kindBelow_nil] at here ⊢

/-- The first entry of a listing is that of the least name. -/
theorem name_eq_of_add {one other : String} {first second : Node} {rest rest' : Listing}
    (sorted : (add one first rest).Ordered) (sorted' : (add other second rest').Ordered)
    (same : ∀ name, ((add one first rest).find? name).isSome =
      ((add other second rest').find? name).isSome) :
    one = other := by
  have least := (ordered_add_iff.mp sorted).1
  have least' := (ordered_add_iff.mp sorted').1
  rcases Std.lt_trichotomy one other with less | equal | greater
  · have absent : (add other second rest').find? one = none := by
      apply find?_of_lt
      rw [names_add]
      exact least_cons less least'
    have found := same one
    rw [absent, find?_add, if_pos rfl] at found
    cases found
  · exact equal
  · have absent : (add one first rest).find? other = none := by
      apply find?_of_lt
      rw [names_add]
      exact least_cons greater least
    have found := same other
    rw [absent, find?_add, if_pos rfl] at found
    cases found

/-- A listing that has the same at every place as one with a first entry has such an entry too. -/
theorem add_of_kind? {name : String} {node : Node} {rest b : Listing}
    (sorted : (add name node rest).Ordered) (sorted' : b.Ordered)
    (same : ∀ place, (add name node rest).kind? place = b.kind? place) :
    ∃ node' rest', b = add name node' rest' ∧
      (∀ place, node.kindBelow place = node'.kindBelow place) ∧
      ∀ place, rest.kind? place = rest'.kind? place := by
  have found := isSome_find?_of_kind? same
  rcases exists_add b with rfl | ⟨other, node', rest', rfl⟩
  · have here := found name
    rw [find?_add, if_pos rfl] at here
    cases here
  · cases name_eq_of_add sorted sorted' found
    refine ⟨node', rest', rfl, ?_, ?_⟩
    · intro place
      have here := same (name :: place)
      rw [kind?_cons, kind?_cons, find?_add, find?_add, if_pos rfl, if_pos rfl] at here
      exact here
    · intro place
      cases place with
      | nil => rfl
      | cons head place =>
        have here := same (head :: place)
        rw [kind?_cons, kind?_cons, find?_add, find?_add] at here
        rw [kind?_cons, kind?_cons]
        by_cases own : name = head
        · subst own
          rw [find?_of_lt (ordered_add_iff.mp sorted).1, find?_of_lt (ordered_add_iff.mp sorted').1]
        · rwa [if_neg own, if_neg own] at here

/-- Trees that have the same at every place are equal. -/
theorem eq_of_kind? {a b : Listing} (sorted : a.Ordered) (sorted' : b.Ordered)
    (same : ∀ place, a.kind? place = b.kind? place) : a = b := by
  induction a generalizing b with
  | empty =>
    rcases exists_add b with rfl | ⟨name, node, rest, rfl⟩
    · rfl
    · have found := isSome_find?_of_kind? same name
      rw [find?_add, if_pos rfl] at found
      cases found
  | file name content rest ih =>
    obtain ⟨node, rest', rfl, inside, behind⟩ :=
      @add_of_kind? name (.file content) rest b sorted sorted' same
    have here := inside []
    cases node with
    | directory inner => cases here
    | file content' =>
      cases here
      rw [ih sorted.2 (ordered_add_iff.mp sorted').2.2 behind]
      rfl
  | directory name inner rest ihInner ih =>
    obtain ⟨node, rest', rfl, inside, behind⟩ :=
      @add_of_kind? name (.directory inner) rest b sorted sorted' same
    have here := inside []
    cases node with
    | file content => cases here
    | directory inner' =>
      have below := (ordered_add_iff.mp sorted').2.1
      rw [ihInner sorted.2.1 below inside, ih sorted.2.2 (ordered_add_iff.mp sorted').2.2 behind]
      rfl

end Listing
end ClassCoverage
