import ClassCoverage.Metadata

/-! How far the payload of a metadata file is read. Whatever lengths it announces, reading takes one
piece after another off the front, never more pieces than there are bytes, and stops at the first
piece that is not there. -/
namespace ClassCoverage.Metadata

/-- A run of a reader on some bytes: the pieces it takes, the answer it ends with, and the bytes it
leaves. -/
inductive Run :
    {α : Type} → Reader α → Bytes → List Bytes → Except PayloadFault α → Bytes → Prop where
  | pure {α : Type} (value : α) (bytes : Bytes) : Run (Pure.pure value) bytes [] (.ok value) bytes
  | throw {α : Type} (fault : PayloadFault) (bytes : Bytes) :
      Run (MonadExcept.throw fault : Reader α) bytes [] (.error fault) bytes
  | taken (fault : PayloadFault) (front rest : Bytes) :
      Run (readBytes fault front.length) (front ++ rest) [front] (.ok front) rest
  | missing (fault : PayloadFault) {size : Nat} {bytes : Bytes} (short : bytes.length < size) :
      Run (readBytes fault size) bytes [] (.error fault) bytes
  | stopped {α β : Type} {reader : Reader α} {next : α → Reader β} {bytes rest : Bytes}
      {pieces : List Bytes} {fault : PayloadFault}
        (first : Run reader bytes pieces (.error fault) rest) :
      Run (reader >>= next) bytes pieces (.error fault) rest
  | next {α β : Type} {reader : Reader α} {next : α →
    Reader β} {bytes middle rest : Bytes} {value : α}
      {pieces more : List Bytes} {answer : Except PayloadFault β}
      (first : Run reader bytes pieces (.ok value) middle)
        (later : Run (next value) middle more answer rest) :
      Run (reader >>= next) bytes (pieces ++ more) answer rest

namespace Run
variable {α : Type} {reader : Reader α} {bytes rest : Bytes} {pieces : List Bytes}
  {answer : Except PayloadFault α}

/-- A run tells what the reader answers. -/
theorem answers (run : Run reader bytes pieces answer rest) :
    reader.run bytes = answer.map (·, rest) := by
  induction run with
  | pure => rfl
  | throw => rfl
  | taken fault front rest =>
    simp only [StateT.run, readBytes, List.take_left, List.drop_left, ↓reduceIte]
    rfl
  | @missing fault size bytes short =>
    have cut : ¬ (bytes.take size).length = size := by
      rw [List.length_take]
      omega
    simp only [StateT.run, readBytes, cut, ↓reduceIte]
    rfl
  | stopped first ih =>
    simp only [StateT.run, Bind.bind, StateT.bind, Except.bind] at ih ⊢
    rw [ih]
    rfl
  | next first later ih ihLater =>
    simp only [StateT.run, Bind.bind, StateT.bind, Except.bind] at ih ihLater ⊢
    rw [ih]
    exact ihLater

/-- What was taken and what is left are the bytes that were given. -/
theorem flatten (run : Run reader bytes pieces answer rest) : pieces.flatten ++ rest = bytes := by
  induction run with
  | pure => rfl
  | throw => rfl
  | taken => simp
  | missing => rfl
  | stopped first ih => exact ih
  | next first later ih ihLater => rw [List.flatten_append, List.append_assoc, ihLater, ih]

end Run

/-- On any bytes the reader comes to an end, and takes no more pieces than it takes bytes. -/
def Thrifty {α : Type} (reader : Reader α) : Prop :=
  ∀ bytes, ∃ pieces answer rest, Run reader bytes pieces answer rest ∧
    pieces.length ≤ pieces.flatten.length

namespace Thrifty
variable {α β : Type}

theorem pure (value : α) : Thrifty (Pure.pure value) :=
  fun bytes => ⟨[], _, bytes, .pure value bytes, Nat.le_refl 0⟩

theorem throw (fault : PayloadFault) : Thrifty (MonadExcept.throw fault : Reader α) :=
  fun bytes => ⟨[], _, bytes, .throw fault bytes, Nat.le_refl 0⟩

theorem bind {reader : Reader α} {next : α → Reader β} (first : Thrifty reader)
    (later : ∀ value, Thrifty (next value)) : Thrifty (reader >>= next) := by
  intro bytes
  obtain ⟨pieces, answer, middle, run, few⟩ := first bytes
  cases answer with
  | error fault => exact ⟨pieces, _, middle, .stopped run, few⟩
  | ok value =>
    obtain ⟨more, answer, rest, runLater, fewLater⟩ := later value middle
    refine ⟨pieces ++ more, answer, rest, .next run runLater, ?_⟩
    rw [List.flatten_append, List.length_append, List.length_append]
    omega

private theorem map {reader : Reader α} (thrifty : Thrifty reader) (f : α → β) :
    Thrifty (f <$> reader) := by
  rw [map_eq_pure_bind]
  exact thrifty.bind fun value => pure (f value)

end Thrifty

theorem run_bytes (fault : PayloadFault) (size : Nat) (bytes : Bytes) :
    (∃ front rest, front.length = size ∧ bytes = front ++ rest ∧
      Run (readBytes fault size) bytes [front] (.ok front) rest) ∨
    Run (readBytes fault size) bytes [] (.error fault) bytes := by
  by_cases enough : size ≤ bytes.length
  · have front : (bytes.take size).length = size := by
      rw [List.length_take]
      omega
    have run := Run.taken fault (bytes.take size) (bytes.drop size)
    rw [front, List.take_append_drop] at run
    exact .inl ⟨bytes.take size, bytes.drop size, front,
      (List.take_append_drop size bytes).symm, run⟩
  · exact .inr (.missing fault (Nat.lt_of_not_le enough))

private theorem thrifty_bytes (fault : PayloadFault) {size : Nat} (some : 0 < size) :
    Thrifty (readBytes fault size) := by
  intro bytes
  rcases run_bytes fault size bytes with ⟨front, rest, length, -, run⟩ | run
  · refine ⟨[front], _, rest, run, ?_⟩
    simp only [List.length_cons, List.length_nil, List.flatten_cons,
      List.flatten_nil, List.append_nil]
    omega
  · exact ⟨[], _, bytes, run, Nat.le_refl 0⟩

theorem thrifty_number {width : Nat} (some : 0 < width) : Thrifty (readNumber width) :=
  (thrifty_bytes .cutShort some).map Bytes.toNat

private theorem thrifty_body (body : Bytes) : Thrifty
    (match Utf8.decode body with
      | .ok chars => return String.ofList chars
      | .error fault => throw (.text fault) : Reader String) := by
  cases Utf8.decode body with
  | ok chars => exact .pure _
  | error fault => exact .throw _

/-- An empty text is a piece without bytes, but its length is not. -/
theorem thrifty_text : Thrifty readText := by
  intro bytes
  have number (size : Bytes) (rest : Bytes) (eight : size.length = 8) :
      Run (readNumber 8) (size ++ rest) ([size] ++ []) (.ok (Bytes.toNat size)) rest := by
    have run := Run.taken .cutShort size rest
    rw [eight] at run
    unfold readNumber
    rw [map_eq_pure_bind]
    exact .next run (.pure _ rest)
  rcases run_bytes .cutShort 8 bytes with ⟨size, rest, eight, rfl, -⟩ | run
  · have first := number size rest eight
    rcases run_bytes .overrun (Bytes.toNat size) rest with ⟨body, left, -, -, taken⟩ | missing
    · obtain ⟨more, answer, last, run, few⟩ := thrifty_body body left
      refine ⟨[size] ++ [] ++ ([body] ++ more), answer, last, .next first (.next taken run), ?_⟩
      simp only [List.append_nil, List.cons_append, List.nil_append,
        List.length_cons, List.flatten_cons,
        List.length_append]
      omega
    · refine ⟨[size] ++ [] ++ [], _, rest, .next first (.stopped missing), ?_⟩
      simp only [List.append_nil, List.length_cons, List.length_nil,
        List.flatten_cons, List.flatten_nil]
      omega
  · have stopped : Run (readNumber 8) bytes [] (.error .cutShort) bytes := by
      unfold readNumber
      rw [map_eq_pure_bind]
      exact .stopped run
    exact ⟨[], _, bytes, .stopped stopped, Nat.le_refl 0⟩

section
variable {α : Type} {item : Reader α}

private theorem thrifty_times (each : Thrifty item) (count : Nat) :
    Thrifty (readTimes item count) := by
  induction count with
  | zero => exact .pure []
  | succ count ih => exact each.bind fun value => ih.bind fun values => .pure (value :: values)

theorem thrifty_list (each : Thrifty item) : Thrifty (readList item) :=
  (thrifty_number (by decide)).bind (thrifty_times each)

private theorem thrifty_option (each : Thrifty item) : Thrifty (readOption item) := by
  apply (thrifty_number (by decide)).bind
  intro tag
  match tag with
  | 0 => exact .pure none
  | 1 => exact each.bind fun inner => .pure (some inner)
  | other + 2 => exact .throw (.tag (other + 2))

end

private theorem thrifty_bool : Thrifty readBool := by
  apply (thrifty_number (by decide)).bind
  intro byte
  match byte with
  | 0 => exact .pure false
  | 1 => exact .pure true
  | other + 2 => exact .throw (.bool (other + 2))

private theorem thrifty_line : Thrifty readLine :=
  (thrifty_number (by decide)).bind fun _ => (thrifty_number (by decide)).bind fun _ => .pure _

private theorem thrifty_branch : Thrifty readBranch :=
  (thrifty_number (by decide)).bind fun _ => (thrifty_number (by decide)).bind fun _ =>
    thrifty_bool.bind fun _ => .pure _

private theorem thrifty_record : Thrifty readRecord :=
  thrifty_text.bind fun _ => (thrifty_option thrifty_text).bind fun _ =>
    (thrifty_list thrifty_line).bind fun _ => (thrifty_list thrifty_branch).bind fun _ => .pure _

theorem thrifty_pairs : Thrifty readPairs :=
  thrifty_list (thrifty_text.bind fun _ => thrifty_record.bind fun _ => .pure _)

end ClassCoverage.Metadata
