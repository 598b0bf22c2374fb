import ClassCoverage.Metadata

/-! The grammar of the payload of a metadata file. Every reader answers a value exactly when the
bytes start with a form of this value, and takes this form and no more. -/
namespace ClassCoverage.Metadata

/-- Which bytes stand for which value. -/
abbrev Form (α : Type) := Bytes → α → Prop

def IsNumber (width : Nat) : Form Nat := fun bytes number =>
  bytes.length = width ∧ Bytes.toNat bytes = number

/-- The length of a text in bytes, and then the text. -/
def IsText : Form String := fun bytes text =>
  ∃ size body, bytes = size ++ body ∧ IsNumber 8 size body.length ∧ body = Utf8.encode text.toList

section
variable {α : Type}

/-- Forms of values one after another. -/
inductive IsEach (item : Form α) : Form (List α) where
  | nil : IsEach item [] []
  | cons {front back : Bytes} {value : α} {values : List α} (first : item front value)
      (later : IsEach item back values) : IsEach item (front ++ back) (value :: values)

/-- The number of values, and then the values. -/
def IsList (item : Form α) : Form (List α) := fun bytes values =>
  ∃ count body, bytes = count ++ body ∧ IsNumber 8 count values.length ∧ IsEach item body values

inductive IsOption (item : Form α) : Form (Option α) where
  | none : IsOption item [0] none
  | some {bytes : Bytes} {value : α} (inner : item bytes value) :
    IsOption item (1 :: bytes) (some value)

end

inductive IsBool : Form Bool where
  | no : IsBool [0] false
  | yes : IsBool [1] true

def IsLine : Form LineCounter := fun bytes counter =>
  ∃ line hits, bytes = line ++ hits ∧ IsNumber 4 line counter.line.toNat ∧
    IsNumber 8 hits counter.hits.toNat

def IsBranch : Form BranchCounter := fun bytes counter =>
  ∃ line arm taken, bytes = line ++ (arm ++ taken) ∧ IsNumber 4 line counter.line.toNat ∧
    IsNumber 4 arm counter.arm.toNat ∧ IsBool taken counter.taken

def IsRecord : Form Record := fun bytes record =>
  ∃ name hint lines branches, bytes = name ++ (hint ++ (lines ++ branches)) ∧
    IsText name record.name ∧ IsOption IsText hint record.sourceFile ∧
    IsList IsLine lines record.lines ∧ IsList IsBranch branches record.branches

/-- A record behind its key. -/
def IsPair : Form (String × Record) := fun bytes pair =>
  ∃ key record, bytes = key ++ record ∧ IsText key pair.1 ∧ IsRecord record pair.2

def IsPayload : Form (List (String × Record)) := IsList IsPair

/-- The reader answers the values that the bytes start with a form of. -/
def Accepts {α : Type} (reader : Reader α) (form : Form α) : Prop :=
  ∀ bytes value rest,
    reader.run bytes = .ok (value, rest) ↔ ∃ front, bytes = front ++ rest ∧ form front value

namespace Accepts
variable {α β : Type}

theorem congr {reader : Reader α} {form form' : Form α} (accepts : Accepts reader form)
    (same : ∀ bytes value, form bytes value ↔ form' bytes value) : Accepts reader form' := by
  intro bytes value rest
  rw [accepts bytes value rest]
  simp only [same]

theorem pure (value : α) :
    Accepts (Pure.pure value) fun bytes answer => bytes = [] ∧ answer = value := by
  intro bytes answer rest
  constructor
  · intro run
    cases run
    exact ⟨[], rfl, rfl, rfl⟩
  · rintro ⟨front, rfl, rfl, rfl⟩
    rfl

theorem throw (fault : PayloadFault) :
    Accepts (MonadExcept.throw fault : Reader α) fun _ _ => False := by
  intro bytes answer rest
  constructor
  · intro run
    cases run
  · rintro ⟨_, _, impossible⟩
    exact impossible.elim

theorem bind {reader : Reader α} {next : α → Reader β} {form : Form α} {forms : α → Form β}
    (first : Accepts reader form) (later : ∀ value, Accepts (next value) (forms value)) :
    Accepts (reader >>= next) fun bytes answer =>
      ∃ value front back, bytes = front ++ back ∧ form front value ∧ forms value back answer := by
  intro bytes answer rest
  have opened : (reader >>= next).run bytes =
      match reader.run bytes with
      | .ok (value, middle) => (next value).run middle
      | .error fault => .error fault := by
    simp only [StateT.run, Bind.bind, StateT.bind, Except.bind]
    cases reader bytes <;> rfl
  constructor
  · intro run
    rw [opened] at run
    cases taken : reader.run bytes with
    | error fault =>
      rw [taken] at run
      cases run
    | ok result =>
      obtain ⟨value, middle⟩ := result
      rw [taken] at run
      obtain ⟨front, rfl, own⟩ := (first bytes value middle).mp taken
      obtain ⟨back, rfl, others⟩ := (later value middle answer rest).mp run
      exact ⟨front ++ back, by rw [List.append_assoc], value, front, back, rfl, own, others⟩
  · rintro ⟨_, rfl, value, front, back, rfl, own, others⟩
    have taken := (first (front ++ (back ++ rest)) value (back ++ rest)).mpr ⟨front, rfl, own⟩
    have left := (later value (back ++ rest) answer rest).mpr ⟨back, rfl, others⟩
    rw [opened, List.append_assoc, taken]
    exact left

private theorem map {reader : Reader α} {form : Form α} (accepts : Accepts reader form)
    (f : α → β) :
    Accepts (f <$> reader) fun bytes answer => ∃ value, form bytes value ∧ answer = f value := by
  rw [map_eq_pure_bind]
  apply (accepts.bind fun value => pure (f value)).congr
  intro bytes answer
  constructor
  · rintro ⟨value, front, _, rfl, own, rfl, rfl⟩
    exact ⟨value, by rwa [List.append_nil], rfl⟩
  · rintro ⟨value, own, rfl⟩
    exact ⟨value, bytes, [], (List.append_nil bytes).symm, own, rfl, rfl⟩

end Accepts

theorem accepts_bytes (fault : PayloadFault) (size : Nat) :
    Accepts (readBytes fault size) fun bytes front => bytes = front ∧ front.length = size := by
  intro bytes front rest
  simp only [StateT.run, readBytes]
  constructor
  · intro run
    split at run
    · rename_i whole
      obtain ⟨rfl, rfl⟩ := Prod.mk.inj (Except.ok.inj run)
      exact ⟨bytes.take size, (List.take_append_drop size bytes).symm, rfl, whole⟩
    · cases run
  · rintro ⟨_, rfl, rfl, rfl⟩
    rw [if_pos (by rw [List.take_left]), List.take_left, List.drop_left]

theorem accepts_number (width : Nat) : Accepts (readNumber width) (IsNumber width) := by
  apply ((accepts_bytes .cutShort width).map Bytes.toNat).congr
  intro bytes number
  constructor
  · rintro ⟨_, ⟨rfl, size⟩, rfl⟩
    exact ⟨size, rfl⟩
  · rintro ⟨size, rfl⟩
    exact ⟨bytes, ⟨rfl, size⟩, rfl⟩

/-- A body that was taken is a text if it can be decoded. -/
theorem accepts_body (body : Bytes) : Accepts
    (match Utf8.decode body with
      | .ok chars => return String.ofList chars
      | .error fault => throw (.text fault) : Reader String)
    fun bytes text => bytes = [] ∧ body = Utf8.encode text.toList := by
  cases valid : Utf8.decode body with
  | ok chars =>
    have written := Utf8.decode_eq_ok_iff.mp valid
    apply (Accepts.pure (String.ofList chars)).congr
    intro bytes text
    rw [written]
    constructor
    · rintro ⟨rfl, rfl⟩
      exact ⟨rfl, by rw [String.toList_ofList]⟩
    · rintro ⟨rfl, same⟩
      have read := congrArg Utf8.decode same
      rw [Utf8.decode_encode, Utf8.decode_encode] at read
      exact ⟨rfl, by rw [Except.ok.inj read, String.ofList_toList]⟩
  | error fault =>
    apply (Accepts.throw (.text fault)).congr
    intro bytes text
    constructor
    · exact False.elim
    · rintro ⟨-, rfl⟩
      rw [Utf8.decode_encode] at valid
      cases valid

theorem accepts_text : Accepts readText IsText := by
  apply ((accepts_number 8).bind fun size => (accepts_bytes .overrun size).bind accepts_body).congr
  intro bytes text
  constructor
  · rintro ⟨_, size, _, rfl, number, _, body, _, rfl, ⟨rfl, rfl⟩, rfl, valid⟩
    exact ⟨size, body, by rw [List.append_nil], number, valid⟩
  · rintro ⟨size, body, rfl, number, valid⟩
    exact ⟨body.length, size, body, rfl, number, body, body, [],
      (List.append_nil body).symm, ⟨rfl, rfl⟩,
      rfl, valid⟩

section
variable {α : Type} {item : Reader α} {form : Form α}

private theorem accepts_times (each : Accepts item form) (count : Nat) :
    Accepts (readTimes item count) fun bytes values => values.length = count ∧
    IsEach form bytes values := by
  induction count with
  | zero =>
    apply (Accepts.pure []).congr
    intro bytes values
    constructor
    · rintro ⟨rfl, rfl⟩
      exact ⟨rfl, .nil⟩
    · rintro ⟨none, all⟩
      cases List.length_eq_zero_iff.mp none
      cases all
      exact ⟨rfl, rfl⟩
  | succ count ih =>
    apply (each.bind fun value => ih.bind fun values => Accepts.pure (value :: values)).congr
    intro bytes values
    constructor
    · rintro ⟨value, front, _, rfl, first, others, back, _, rfl, ⟨rfl, later⟩, rfl, rfl⟩
      rw [List.append_nil]
      exact ⟨rfl, .cons first later⟩
    · rintro ⟨size, all⟩
      cases all with
      | nil => cases size
      | @cons front back value others first later =>
        have fewer : others.length = count := by simpa using size
        exact ⟨value, front, back, rfl, first, others, back, [], (List.append_nil back).symm,
          ⟨fewer, later⟩, rfl, rfl⟩

theorem accepts_list (each : Accepts item form) : Accepts (readList item) (IsList form) := by
  apply ((accepts_number 8).bind (accepts_times each)).congr
  intro bytes values
  constructor
  · rintro ⟨_, count, body, rfl, number, rfl, all⟩
    exact ⟨count, body, rfl, number, all⟩
  · rintro ⟨count, body, rfl, number, all⟩
    exact ⟨values.length, count, body, rfl, number, rfl, all⟩

/-- A number of one byte is that byte. -/
theorem isNumber_byte_iff {bytes : Bytes} (byte : UInt8) :
    IsNumber 1 bytes byte.toNat ↔ bytes = [byte] := by
  constructor
  · rintro ⟨size, number⟩
    obtain ⟨own, rfl⟩ := List.length_eq_one_iff.mp size
    rw [UInt8.toNat.inj (a := own) (b := byte) (by simpa [Bytes.toNat] using number)]
  · rintro rfl
    exact ⟨rfl, by simp [Bytes.toNat]⟩

theorem lt_of_isNumber {width : Nat} {bytes : Bytes} {number : Nat}
    (formed : IsNumber width bytes number) :
    number < 256 ^ width := by
  obtain ⟨rfl, rfl⟩ := formed
  exact Bytes.toNat_lt bytes

/-- What a tag announces. -/
theorem accepts_tagged (each : Accepts item form) (tag : Nat) : Accepts
    (match tag with
      | 0 => return none
      | 1 => return some (← item)
      | tag => throw (.tag tag) : Reader (Option α))
    fun bytes value => (tag = 0 ∧ bytes = [] ∧ value = none) ∨
      (tag = 1 ∧ ∃ inner, form bytes inner ∧ value = some inner) := by
  match tag with
  | 0 =>
    apply (Accepts.pure none).congr
    simp
  | 1 =>
    apply (each.bind fun inner => Accepts.pure (some inner)).congr
    intro bytes value
    constructor
    · rintro ⟨inner, front, _, rfl, own, rfl, rfl⟩
      exact .inr ⟨rfl, inner, by rwa [List.append_nil], rfl⟩
    · rintro (⟨zero, _⟩ | ⟨-, inner, own, rfl⟩)
      · cases zero
      · exact ⟨inner, bytes, [], (List.append_nil bytes).symm, own, rfl, rfl⟩
  | other + 2 =>
    apply (Accepts.throw (.tag (other + 2))).congr
    simp

private theorem accepts_option (each : Accepts item form) :
    Accepts (readOption item) (IsOption form) := by
  apply ((accepts_number 1).bind (accepts_tagged each)).congr
  intro bytes value
  constructor
  · rintro ⟨tag, front, back, rfl, number, ⟨rfl, rfl, rfl⟩ | ⟨rfl, inner, own, rfl⟩⟩
    · rw [(isNumber_byte_iff 0).mp number]
      exact .none
    · rw [(isNumber_byte_iff 1).mp number]
      exact .some own
  · intro formed
    cases formed with
    | none => exact ⟨0, [0], [], rfl, (isNumber_byte_iff 0).mpr rfl, .inl ⟨rfl, rfl, rfl⟩⟩
    | @some inside inner own =>
      exact ⟨1, [1], inside, rfl, (isNumber_byte_iff 1).mpr rfl, .inr ⟨rfl, inner, own, rfl⟩⟩

end

private theorem accepts_flag (byte : Nat) : Accepts
    (match byte with
      | 0 => return false
      | 1 => return true
      | byte => throw (.bool byte) : Reader Bool)
    fun bytes value => bytes = [] ∧ ((byte = 0 ∧ value = false) ∨ (byte = 1 ∧ value = true)) := by
  match byte with
  | 0 =>
    apply (Accepts.pure false).congr
    simp
  | 1 =>
    apply (Accepts.pure true).congr
    simp
  | other + 2 =>
    apply (Accepts.throw (.bool (other + 2))).congr
    simp

private theorem accepts_bool : Accepts readBool IsBool := by
  apply ((accepts_number 1).bind accepts_flag).congr
  intro bytes value
  constructor
  · rintro ⟨byte, front, back, rfl, number, rfl, ⟨rfl, rfl⟩ | ⟨rfl, rfl⟩⟩
    · rw [(isNumber_byte_iff 0).mp number]
      exact .no
    · rw [(isNumber_byte_iff 1).mp number]
      exact .yes
  · intro formed
    cases formed with
    | no => exact ⟨0, [0], [], rfl, (isNumber_byte_iff 0).mpr rfl, rfl, .inl ⟨rfl, rfl⟩⟩
    | yes => exact ⟨1, [1], [], rfl, (isNumber_byte_iff 1).mpr rfl, rfl, .inr ⟨rfl, rfl⟩⟩

private theorem accepts_line : Accepts readLine IsLine := by
  apply ((accepts_number 4).bind fun line => (accepts_number 8).bind fun hits =>
    Accepts.pure ({ line := .ofNat line, hits := .ofNat hits } : LineCounter)).congr
  intro bytes counter
  constructor
  · rintro ⟨_, line, _, rfl, isLine, _, hits, _, rfl, isHits, rfl, rfl⟩
    refine ⟨line, hits, by rw [List.append_nil], ?_, ?_⟩
    · rwa [UInt32.toNat_ofNat_of_lt' (lt_of_isNumber isLine)]
    · rwa [UInt64.toNat_ofNat_of_lt' (lt_of_isNumber isHits)]
  · rintro ⟨line, hits, rfl, isLine, isHits⟩
    refine ⟨_, line, hits, rfl, isLine, _, hits, [], (List.append_nil hits).symm, isHits, rfl, ?_⟩
    rw [UInt32.ofNat_toNat, UInt64.ofNat_toNat]

private theorem accepts_branch : Accepts readBranch IsBranch := by
  apply ((accepts_number 4).bind fun line => (accepts_number 4).bind fun arm =>
    accepts_bool.bind fun taken =>
      Accepts.pure
        ({ line := .ofNat line, arm := .ofNat arm, taken := taken } : BranchCounter)).congr
  intro bytes counter
  constructor
  · rintro ⟨_, line, _, rfl, isLine, _, arm, _, rfl, isArm, _, taken, _, rfl, isTaken, rfl, rfl⟩
    refine ⟨line, arm, taken, by rw [List.append_nil], ?_, ?_, isTaken⟩
    · rwa [UInt32.toNat_ofNat_of_lt' (lt_of_isNumber isLine)]
    · rwa [UInt32.toNat_ofNat_of_lt' (lt_of_isNumber isArm)]
  · rintro ⟨line, arm, taken, rfl, isLine, isArm, isTaken⟩
    refine ⟨_, line, arm ++ taken, rfl, isLine, _, arm, taken, rfl, isArm, _, taken, [],
      (List.append_nil taken).symm, isTaken, rfl, ?_⟩
    rw [UInt32.ofNat_toNat, UInt32.ofNat_toNat]

private theorem accepts_record : Accepts readRecord IsRecord := by
  apply (accepts_text.bind fun name => (accepts_option accepts_text).bind fun sourceFile =>
    (accepts_list accepts_line).bind fun lines => (accepts_list accepts_branch).bind fun branches =>
      Accepts.pure ({ name, sourceFile, lines, branches } : Record)).congr
  intro bytes record
  constructor
  · rintro ⟨_, name, _, rfl, isName, _, hint, _, rfl, isHint, _, lines, _, rfl,
      isLines, _, branches, _,
      rfl, isBranches, rfl, rfl⟩
    exact ⟨name, hint, lines,
      branches, by rw [List.append_nil], isName, isHint, isLines, isBranches⟩
  · rintro ⟨name, hint, lines, branches, rfl, isName, isHint, isLines, isBranches⟩
    exact ⟨_, name, _, rfl, isName, _, hint, _, rfl, isHint, _, lines, _, rfl,
      isLines, _, branches, [],
      (List.append_nil branches).symm, isBranches, rfl, rfl⟩

theorem accepts_pairs : Accepts readPairs IsPayload := by
  apply accepts_list
  apply (accepts_text.bind fun key => accepts_record.bind fun record =>
    Accepts.pure (key, record)).congr
  intro bytes pair
  constructor
  · rintro ⟨_, key, _, rfl, isKey, _, record, _, rfl, isRecord, rfl, rfl⟩
    exact ⟨key, record, by rw [List.append_nil], isKey, isRecord⟩
  · rintro ⟨key, record, rfl, isKey, isRecord⟩
    exact ⟨_, key, record, rfl, isKey, _, record, [],
      (List.append_nil record).symm, isRecord, rfl, rfl⟩

end ClassCoverage.Metadata
