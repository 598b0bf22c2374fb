import ClassCoverage.Proofs.MetadataAcceptance

/-! Metadata that was written is read back as the same store, whatever is in it, as long as every
length it has fits into the 64 bits that a length is written in. -/
namespace ClassCoverage.Metadata

def MeasuredText (text : String) : Prop := (Utf8.encode text.toList).length < 2 ^ (64 : Nat)

instance (text : String) : Decidable (MeasuredText text) := by
  unfold MeasuredText
  infer_instance

structure MeasuredRecord (record : Record) : Prop where
  name : MeasuredText record.name
  hint : ∀ hint ∈ record.sourceFile, MeasuredText hint
  lines : record.lines.length < 2 ^ (64 : Nat)
  branches : record.branches.length < 2 ^ (64 : Nat)

/-- Every length in the store is below 2 ^ 64. -/
structure Measured (store : Store) : Prop where
  size : store.size < 2 ^ (64 : Nat)
  records : ∀ record ∈ store.records, MeasuredRecord record

theorem isNumber_ofNat {width number : Nat} (small : number < 256 ^ width) :
    IsNumber width (Bytes.ofNat width number) number := by
  refine ⟨Bytes.length_ofNat width number, ?_⟩
  rw [Bytes.toNat_ofNat, Nat.mod_eq_of_lt small]

theorem isNumber_writeNumber {number : Nat} (small : number < 2 ^ (64 : Nat)) :
    IsNumber 8 (writeNumber number) number :=
  isNumber_ofNat (by omega)

theorem isText_writeText {text : String} (measured : MeasuredText text) :
    IsText (writeText text) text :=
  ⟨_, _, rfl, isNumber_writeNumber measured, rfl⟩

section
variable {α : Type} {form : Form α} {write : α → Bytes}

private theorem isEach_flatMap {values : List α}
    (each : ∀ value ∈ values, form (write value) value) :
    IsEach form (values.flatMap write) values := by
  induction values with
  | nil => exact .nil
  | cons value values ih =>
    rw [List.flatMap_cons]
    apply IsEach.cons
    · exact each value (List.mem_cons_self ..)
    · exact ih fun other member => each other (List.mem_cons_of_mem _ member)

theorem isList_writeList {values : List α} (small : values.length < 2 ^ (64 : Nat))
    (each : ∀ value ∈ values, form (write value) value) :
    IsList form (writeList write values) values :=
  ⟨_, _, rfl, isNumber_writeNumber small, isEach_flatMap each⟩

private theorem isOption_writeOption {value : Option α}
    (each : ∀ inner ∈ value, form (write inner) inner) :
    IsOption form (writeOption write value) value := by
  cases value with
  | none => exact .none
  | some inner => exact .some (each inner rfl)

end

private theorem isLine_writeLine (counter : LineCounter) : IsLine (writeLine counter) counter :=
  ⟨_, _, rfl, isNumber_ofNat counter.line.toNat_lt, isNumber_ofNat counter.hits.toNat_lt⟩

private theorem isBool_byte (value : Bool) : IsBool [if value then 1 else 0] value := by
  cases value with
  | false => exact .no
  | true => exact .yes

private theorem isBranch_writeBranch (counter : BranchCounter) :
    IsBranch (writeBranch counter) counter := by
  refine ⟨_, _, _, ?_, isNumber_ofNat counter.line.toNat_lt, isNumber_ofNat counter.arm.toNat_lt,
    isBool_byte counter.taken⟩
  rw [writeBranch, List.append_assoc]

private theorem isRecord_writeRecord {record : Record} (measured : MeasuredRecord record) :
    IsRecord (writeRecord record) record := by
  refine ⟨writeText record.name, writeOption writeText record.sourceFile,
    writeList writeLine record.lines,
    writeList writeBranch record.branches, ?_, isText_writeText measured.name, ?_, ?_, ?_⟩
  · rw [writeRecord, List.append_assoc, List.append_assoc]
  · exact isOption_writeOption fun hint own => isText_writeText (measured.hint hint own)
  · exact isList_writeList measured.lines fun counter _ => isLine_writeLine counter
  · exact isList_writeList measured.branches fun counter _ => isBranch_writeBranch counter

def pairOf (record : Record) : String × Record := (record.name, record)

/-- A record under its key, as it is written. -/
def writePair (pair : String × Record) : Bytes := writeText pair.1 ++ writeRecord pair.2

theorem payload_eq (store : Store) :
    payload store = writeList writePair (store.records.map pairOf) := by
  simp [payload, writeList, List.flatMap_map, writePair, pairOf]

theorem isPayload_payload {store : Store} (measured : Measured store) :
    IsPayload (payload store) (store.records.map pairOf) := by
  rw [payload_eq]
  apply isList_writeList
  · rw [List.length_map]
    exact measured.size
  · intro pair member
    obtain ⟨record, own, rfl⟩ := List.mem_map.mp member
    have inside := measured.records record own
    exact ⟨_, _, rfl, isText_writeText inside.name, isRecord_writeRecord inside⟩

/-- A store has one record for each class, so the last one of a class is the only one. -/
theorem lastOf_records (store : Store) (key : String) :
    lastOf (store.records.map pairOf) key = store.get? key := by
  have ascending : Ascending (store.records.map pairOf) := List.pairwise_map.mpr store.increasing
  apply Option.ext
  intro record
  rw [lastOf_eq_some_iff ascending.distinct, List.mem_map]
  constructor
  · rintro ⟨own, member, same⟩
    cases same
    exact Store.get?_of_mem member
  · intro found
    have named := Store.name_of_get? found
    exact ⟨record, Store.mem_of_get? found, by rw [pairOf, named]⟩

private theorem isStoreOf_records (store : Store) : IsStoreOf (store.records.map pairOf) store where
  placed key record found := by
    rw [lastOf_records] at found
    exact Store.name_of_get? found
  records key := (lastOf_records store key).symm

/-- Reading undoes writing. -/
theorem decode_of_measured {store : Store} (measured : Measured store) :
    decode (encode store) = .ok store := by
  have read := decode_sealed (isPayload_payload measured) []
  rw [List.append_nil] at read
  exact read.trans (storeOfPairs_eq_ok_iff.mpr (isStoreOf_records store))

/-- The file of a store is the magic, the digest of the payload and the payload, which lists every
record under its class; reading it gives the store back, so no other store has the same file. -/
theorem decode_undoes_encode {store : Store} (measured : Measured store) :
    decode (encode store) = .ok store ∧
    encode store = magic ++ Sha256.digest (payload store) ++ payload store ∧
    IsPayload (payload store) (store.records.map pairOf) ∧
    ∀ other, Measured other → encode other = encode store → other = store := by
  refine ⟨decode_of_measured measured, rfl, isPayload_payload measured, ?_⟩
  intro other measured' same
  have read := decode_of_measured measured'
  rw [same, decode_of_measured measured] at read
  exact (Except.ok.inj read).symm

theorem decode_undoes_encode_mixed :
    ∃ store : Store,
      store.records = [
        { name := "Main" },
        { name := "shop.Übersicht"
          sourceFile := some "Übersicht.java"
          lines := [{ line := 4294967295, hits := 18446744073709551615 }, { line := 0 }]
          branches := [{ line := 7, arm := 4294967295, taken := true },
          { line := 7, arm := 0 }] }] ∧
      Measured store ∧ decode (encode store) = .ok store ∧
      ∀ other, Measured other → encode other = encode store → other = store := by
  refine ⟨⟨_, by unfold Records.Increasing; decide⟩, rfl, ?_⟩
  generalize whole : (Store.mk _ _) = store
  have measured : Measured store := by
    subst whole
    constructor
    · decide
    · intro record member
      rcases List.mem_pair.mp member with rfl | rfl
      · exact ⟨by decide, by decide, by decide, by decide⟩
      · exact ⟨by decide, by decide, by decide, by decide⟩
  obtain ⟨read, -, -, unique⟩ := decode_undoes_encode measured
  exact ⟨measured, read, unique⟩

/-- Sizes are written in 64 bits. -/
def Fits (store : Store) : Prop := (payload store).length < 256 ^ (8 : Nat)

section
variable {α : Type} {write : α → Bytes} {values : List α}

private theorem length_le_flatMap {value : α} (member : value ∈ values) :
    (write value).length ≤ (values.flatMap write).length := by
  induction values with
  | nil => cases member
  | cons other values ih =>
    rw [List.flatMap_cons, List.length_append]
    rcases List.mem_cons.mp member with rfl | member
    · omega
    · have later := ih member
      omega

theorem count_le_flatMap (some : ∀ value, 0 < (write value).length) :
    values.length ≤ (values.flatMap write).length := by
  induction values with
  | nil => exact Nat.le_refl 0
  | cons value values ih =>
    have first := some value
    rw [List.flatMap_cons, List.length_cons, List.length_append]
    omega

end

theorem length_writeText (text : String) :
    (writeText text).length = 8 + (Utf8.encode text.toList).length := by
  simp [writeText, writeNumber]

private theorem measuredRecord_of_length {record : Record}
    (small : (writeRecord record).length < 2 ^ (64 : Nat)) :
    MeasuredRecord record := by
  have name := length_writeText record.name
  have lines := @count_le_flatMap _ writeLine record.lines fun counter => by simp [writeLine]
  have branches := @count_le_flatMap _ writeBranch record.branches fun counter => by
    simp [writeBranch]
  simp only [writeRecord, writeList, writeNumber, List.length_append, Bytes.length_ofNat] at small
  refine ⟨by unfold MeasuredText; omega, ?_, by omega, by omega⟩
  intro hint own
  have inside := length_writeText hint
  rw [Option.mem_def.mp own, writeOption, List.length_cons] at small
  unfold MeasuredText
  omega

/-- No length in a payload is larger than the payload. -/
theorem Fits.measured {store : Store} (fits : Fits store) : Measured store := by
  unfold Fits at fits
  have count := @count_le_flatMap _ writePair (store.records.map pairOf) fun pair => by
    rw [writePair, List.length_append, length_writeText]
    omega
  rw [payload_eq, writeList, writeNumber, List.length_append, Bytes.length_ofNat] at fits
  rw [List.length_map] at count
  constructor
  · unfold Store.size
    omega
  · intro record member
    have part := @length_le_flatMap _ writePair _ _ (List.mem_map_of_mem (f := pairOf) member)
    rw [writePair, List.length_append] at part
    apply measuredRecord_of_length
    simp only [pairOf] at part
    omega

private theorem measuredText_of_isText {bytes : Bytes} {text : String}
    (formed : IsText bytes text) :
    MeasuredText text := by
  obtain ⟨size, body, -, number, rfl⟩ := formed
  have small := lt_of_isNumber number
  unfold MeasuredText
  omega

private theorem length_lt_of_isList {α : Type} {form : Form α} {bytes : Bytes} {values : List α}
    (formed : IsList form bytes values) : values.length < 2 ^ (64 : Nat) := by
  obtain ⟨count, body, -, number, -⟩ := formed
  have small := lt_of_isNumber number
  omega

private theorem measuredRecord_of_isRecord {bytes : Bytes} {record : Record}
    (formed : IsRecord bytes record) :
    MeasuredRecord record := by
  obtain ⟨name, hint, lines, branches, -, isName, isHint, isLines, isBranches⟩ := formed
  refine ⟨measuredText_of_isText isName, ?_, length_lt_of_isList isLines,
    length_lt_of_isList isBranches⟩
  intro text own
  generalize record.sourceFile = found at isHint own
  cases isHint with
  | none => cases own
  | some inner =>
    cases own
    exact measuredText_of_isText inner

private theorem exists_of_isEach {α : Type} {form : Form α} {bytes : Bytes} {values : List α}
    (formed : IsEach form bytes values) : ∀ value ∈ values, ∃ part, form part value := by
  induction formed with
  | nil => simp
  | cons first later ih => exact List.forall_mem_cons.mpr ⟨⟨_, first⟩, ih⟩

private theorem mem_of_lookup {pairs : List (String × Record)} {key : String} {record : Record}
    (found : pairs.lookup key = some record) : (key, record) ∈ pairs := by
  induction pairs with
  | nil => cases found
  | cons pair pairs ih =>
    rw [lookup_cons] at found
    split at found
    · rename_i own
      cases found
      rw [own]
      exact List.mem_cons_self ..
    · exact List.mem_cons_of_mem _ (ih found)

/-- Whatever is read from a file can be written to one. -/
theorem measuredRecord_of_decode {bytes : Bytes} {store : Store} (read : decode bytes = .ok store) :
    ∀ record ∈ store.records, MeasuredRecord record := by
  obtain ⟨body, trailing, pairs, -, ⟨count, parts, -, -, each⟩, kept⟩ :=
    (decode_eq_ok_iff.mp read).payload
  intro record member
  have last := kept.records record.name
  rw [Store.get?_of_mem member] at last
  have inside := List.mem_reverse.mp (mem_of_lookup last.symm)
  obtain ⟨_, key, bytes, -, -, formed⟩ := exists_of_isEach each _ inside
  exact measuredRecord_of_isRecord formed

theorem MeasuredRecord.add {one other : Record} (first : MeasuredRecord one)
    (second : MeasuredRecord other) :
    MeasuredRecord (one.add other) where
  name := first.name
  hint := by
    intro hint own
    have source : smallerHint one.sourceFile other.sourceFile = some hint := own
    cases ours : one.sourceFile with
    | none =>
      rw [ours] at source
      exact second.hint hint source
    | some our =>
      cases theirs : other.sourceFile with
      | none =>
        rw [ours, theirs] at source
        exact first.hint hint (ours.trans source)
      | some their =>
        rw [ours, theirs] at source
        simp only [smallerHint, Option.some.injEq] at source
        subst source
        split
        · exact second.hint their theirs
        · exact first.hint our ours
  lines := by
    have shorter : (one.add other).lines.length ≤ one.lines.length := by
      rw [Record.add, List.length_zipWith]
      exact Nat.min_le_left _ _
    exact Nat.lt_of_le_of_lt shorter first.lines
  branches := by
    have shorter : (one.add other).branches.length ≤ one.branches.length := by
      rw [Record.add, List.length_zipWith]
      exact Nat.min_le_left _ _
    exact Nat.lt_of_le_of_lt shorter first.branches

private theorem measuredRecord_sum {a b : Store}
    (first : ∀ record ∈ a.records, MeasuredRecord record)
    (second : ∀ record ∈ b.records, MeasuredRecord record) :
    ∀ record ∈ (a.sum b).records, MeasuredRecord record := by
  intro record member
  have found := Store.get?_of_mem member
  rw [Store.get?_sum] at found
  cases left : a.get? record.name with
  | none =>
    rw [left, Option.merge_none_left] at found
    exact second record (Store.mem_of_get? found)
  | some ours =>
    cases right : b.get? record.name with
    | none =>
      rw [left, right, Option.merge_none_right] at found
      cases found
      exact first record (Store.mem_of_get? left)
    | some theirs =>
      rw [left, right] at found
      cases found
      exact (first ours (Store.mem_of_get? left)).add (second theirs (Store.mem_of_get? right))

theorem measuredRecord_foldl_sum {stores : List Store} {start : Store}
    (first : ∀ record ∈ start.records, MeasuredRecord record)
    (all : ∀ store ∈ stores, ∀ record ∈ store.records, MeasuredRecord record) :
    ∀ record ∈ (stores.foldl Store.sum start).records, MeasuredRecord record := by
  induction stores generalizing start with
  | nil => exact first
  | cons store stores ih =>
    rw [List.forall_mem_cons] at all
    exact ih (measuredRecord_sum first all.1) all.2

end ClassCoverage.Metadata
