import ClassCoverage.Proofs.MetadataGrammar
import ClassCoverage.Proofs.MetadataReading
import ClassCoverage.Proofs.StoreMerge

/-! Which bytes are a metadata file, and of which store. The header vouches for everything behind
it; of that only a payload at the start counts, and in the payload only the last pair of each
key. -/
namespace ClassCoverage.Metadata

/-- The record in the last pair of a key. -/
def lastOf (pairs : List (String × Record)) (key : String) :
    Option Record := pairs.reverse.lookup key

/-- The store that the last pairs make up. Every one of them has the key of its record. -/
structure IsStoreOf (pairs : List (String × Record)) (store : Store) : Prop where
  placed : ∀ key record, lastOf pairs key = some record → record.name = key
  records : ∀ key, store.get? key = lastOf pairs key

def Ascending (pairs : List (String × Record)) :
    Prop := pairs.Pairwise fun one other => one.1 < other.1

theorem lookup_cons (pair : String × Record) (pairs : List (String × Record)) (key : String) :
    (pair :: pairs).lookup key = if key = pair.1 then some pair.2 else pairs.lookup key := by
  obtain ⟨own, record⟩ := pair
  rw [List.lookup_cons]
  by_cases same : key = own
  · rw [if_pos same, beq_iff_eq.mpr same]
  · rw [if_neg same, beq_false_of_ne same]

theorem lookup_keep (pair : String × Record) (kept : List (String × Record)) (key : String) :
    (keep pair kept).lookup key = if key = pair.1 then some pair.2 else kept.lookup key := by
  induction kept with
  | nil => rw [keep, lookup_cons]
  | cons other rest ih =>
    rw [keep]
    split
    · exact lookup_cons pair _ key
    · split
      · rename_i same
        rw [lookup_cons, lookup_cons, same]
        split <;> rfl
      · rename_i different
        rw [lookup_cons, lookup_cons, ih]
        by_cases own : key = other.1
        · rw [if_pos own, if_pos own, if_neg fun same => different (own.symm.trans same)]
        · rw [if_neg own, if_neg own]

private theorem key_of_mem_keep {pair member : String × Record} {kept : List (String × Record)}
    (found : member ∈ keep pair kept) : member.1 = pair.1 ∨ member ∈ kept := by
  induction kept with
  | nil =>
    rw [keep, List.mem_singleton] at found
    exact .inl (congrArg Prod.fst found)
  | cons other rest ih =>
    rw [keep] at found
    split at found
    · rcases List.mem_cons.mp found with rfl | old
      · exact .inl rfl
      · exact .inr old
    · split at found
      · rcases List.mem_cons.mp found with rfl | old
        · exact .inl rfl
        · exact .inr (List.mem_cons_of_mem _ old)
      · rcases List.mem_cons.mp found with rfl | later
        · exact .inr (List.mem_cons_self ..)
        · exact (ih later).imp_right (List.mem_cons_of_mem _)

theorem ascending_keep (pair : String × Record) {kept : List (String × Record)}
    (ascending : Ascending kept) : Ascending (keep pair kept) := by
  induction kept with
  | nil => exact List.pairwise_singleton _ _
  | cons other rest ih =>
    obtain ⟨least, sorted⟩ := List.pairwise_cons.mp ascending
    rw [keep]
    split
    · rename_i smaller
      refine List.pairwise_cons.mpr ⟨fun member found => ?_, ascending⟩
      rcases List.mem_cons.mp found with rfl | later
      · exact smaller
      · exact String.lt_trans smaller (least member later)
    · rename_i notSmaller
      split
      · rename_i same
        exact List.pairwise_cons.mpr ⟨fun member found => same ▸ least member found, sorted⟩
      · rename_i different
        refine List.pairwise_cons.mpr ⟨fun member found => ?_, ih sorted⟩
        rcases key_of_mem_keep found with equal | old
        · rw [equal]
          exact Std.lt_of_le_of_ne (Std.not_lt.mp notSmaller) different
        · exact least member old

theorem ascending_lastOfEach (pairs : List (String × Record)) : Ascending (lastOfEach pairs) := by
  have from_ (kept : List (String × Record)) (ascending : Ascending kept) :
      Ascending (pairs.foldl (fun kept pair => keep pair kept) kept) := by
    induction pairs generalizing kept with
    | nil => exact ascending
    | cons pair pairs ih => exact ih _ (ascending_keep pair ascending)
  exact from_ [] List.Pairwise.nil

private theorem lookup_lastOfEach (pairs : List (String × Record)) (key : String) :
    (lastOfEach pairs).lookup key = lastOf pairs key := by
  have from_ (kept : List (String × Record)) :
      (pairs.foldl (fun kept pair => keep pair kept) kept).lookup key =
        (lastOf pairs key).or (kept.lookup key) := by
    induction pairs generalizing kept with
    | nil => rfl
    | cons pair pairs ih =>
      rw [List.foldl_cons, ih, lookup_keep, lastOf, lastOf, List.reverse_cons, List.lookup_append,
        Option.or_assoc, lookup_cons]
      split <;> rfl
  rw [lastOfEach, from_, List.lookup_nil, Option.or_none]

def Distinct (pairs : List (String × Record)) :
    Prop := pairs.Pairwise fun one other => one.1 ≠ other.1

theorem Ascending.distinct {pairs : List (String × Record)} (ascending : Ascending pairs) :
    Distinct pairs := by
  apply List.Pairwise.imp _ ascending
  intro one other less same
  rw [same] at less
  exact String.lt_irrefl _ less

theorem lookup_eq_some_iff {pairs : List (String × Record)} (distinct : Distinct pairs)
    {key : String} {record : Record} : pairs.lookup key = some record ↔ (key, record) ∈ pairs := by
  induction pairs with
  | nil => simp
  | cons pair pairs ih =>
    obtain ⟨different, others⟩ := List.pairwise_cons.mp distinct
    rw [lookup_cons, List.mem_cons]
    split
    · rename_i own
      subst own
      constructor
      · intro same
        exact .inl (by rw [← Option.some.inj same])
      · rintro (same | later)
        · rw [← same]
        · exact absurd rfl (different (pair.1, record) later)
    · rename_i elsewhere
      rw [ih others]
      constructor
      · exact .inr
      · rintro (same | later)
        · exact absurd (congrArg Prod.fst same) elsewhere
        · exact later

theorem lastOf_eq_some_iff {pairs : List (String × Record)} (distinct : Distinct pairs)
    {key : String} {record : Record} : lastOf pairs key = some record ↔ (key, record) ∈ pairs := by
  have reversed : Distinct pairs.reverse :=
    List.pairwise_reverse.mpr (List.Pairwise.imp Ne.symm distinct)
  rw [lastOf, lookup_eq_some_iff reversed, List.mem_reverse]

private theorem get?_foldl_replace {records : List Record} (increasing : Records.Increasing records)
    (store : Store) (name : String) :
    (records.foldl Store.replace store).get? name =
      (Records.find? name records).or (store.get? name) := by
  induction records generalizing store with
  | nil => simp [Records.find?]
  | cons record records ih =>
    obtain ⟨least, sorted⟩ := List.pairwise_cons.mp increasing
    rw [List.foldl_cons, ih sorted, Store.get?_replace]
    by_cases same : name = record.name
    · subst same
      rw [if_pos rfl, Records.find?_eq_none_of_lt least]
      simp [Records.find?]
    · rw [if_neg same]
      simp [Records.find?, Ne.symm same]

/-- Pairs that have the keys of their records, in key order, are the records of a store. -/
theorem get?_ofList {pairs : List (String × Record)} (ascending : Ascending pairs)
    (placed : ∀ pair ∈ pairs, pair.2.name = pair.1) (key : String) :
    (Store.ofList (pairs.map Prod.snd)).get? key = pairs.lookup key := by
  have increasing : Records.Increasing (pairs.map Prod.snd) := by
    refine List.pairwise_map.mpr (List.Pairwise.imp_of_mem ?_ ascending)
    intro one other member member' less
    rwa [placed one member, placed other member']
  rw [Store.ofList, get?_foldl_replace increasing, Store.get?_empty, Option.or_none]
  clear increasing ascending
  induction pairs with
  | nil => rfl
  | cons pair pairs ih =>
    have own := placed pair (List.mem_cons_self ..)
    have later := ih fun other member => placed other (List.mem_cons_of_mem _ member)
    rw [lookup_cons, List.map_cons, ← own]
    by_cases same : key = pair.2.name
    · rw [same, Records.find?_cons_self, if_pos rfl]
    · rw [Records.find?_cons_of_ne (Ne.symm same), if_neg same, later]

theorem storeOfPairs_eq_ok_iff {pairs : List (String × Record)} {store : Store} :
    storeOfPairs pairs = .ok store ↔ IsStoreOf pairs store := by
  have ascending := ascending_lastOfEach pairs
  have member (key : String) (record : Record) :
      (key, record) ∈ lastOfEach pairs ↔ lastOf pairs key = some record := by
    rw [← lookup_lastOfEach, lookup_eq_some_iff ascending.distinct]
  unfold storeOfPairs
  dsimp only
  cases misplaced : (lastOfEach pairs).find? fun pair => pair.1 ≠ pair.2.name with
  | some pair =>
    obtain ⟨key, record⟩ := pair
    have found := (member key record).mp (List.mem_of_find?_eq_some misplaced)
    have unlike := List.find?_some misplaced
    have different : key ≠ record.name := of_decide_eq_true unlike
    constructor
    · intro run
      cases run
    · intro whole
      exact absurd (whole.placed key record found).symm different
  | none =>
    have placed : ∀ pair ∈ lastOfEach pairs, pair.2.name = pair.1 := by
      intro pair found
      have same := List.find?_eq_none.mp misplaced pair found
      rw [decide_eq_true_eq, not_not] at same
      exact same.symm
    have records (key : String) :
        (Store.ofList ((lastOfEach pairs).map Prod.snd)).get? key = lastOf pairs key := by
      rw [get?_ofList ascending placed, lookup_lastOfEach]
    constructor
    · intro run
      cases run
      exact ⟨fun key record found => placed _ ((member key record).mpr found), records⟩
    · intro whole
      have same : Store.ofList ((lastOfEach pairs).map Prod.snd) = store :=
        Store.ext_get? fun key => by rw [records, whole.records]
      rw [← same]

/-- The bytes are a metadata file of the store. -/
structure IsFile (bytes : Bytes) (store : Store) : Prop where
  size : 40 ≤ bytes.length
  marked : bytes.take 8 = magic
  checksum : (bytes.drop 8).take 32 = Sha256.digest (bytes.drop 40)
  payload : ∃ body trailing pairs, bytes.drop 40 = body ++ trailing ∧ IsPayload body pairs ∧
    IsStoreOf pairs store

/-- A payload behind its header. -/
def sealed (payload : Bytes) : Bytes := magic ++ Sha256.digest payload ++ payload

theorem decode_eq_ok_iff {bytes : Bytes} {store : Store} :
    decode bytes = .ok store ↔ IsFile bytes store := by
  have header : magic.length = 8 := rfl
  unfold decode
  simp only [header, List.drop_drop, Nat.reduceAdd]
  split
  · rename_i short
    constructor
    · intro run
      cases run
    · intro file
      exact absurd file.size (Nat.not_le.mpr short)
  · rename_i size
    split
    · rename_i unmarked
      constructor
      · intro run
        cases run
      · intro file
        exact absurd file.marked unmarked
    · rename_i marked
      split
      · rename_i damaged
        constructor
        · intro run
          cases run
        · intro file
          exact absurd file.checksum.symm damaged
      · rename_i whole
        cases read : readPairs.run (bytes.drop 40) with
        | error fault =>
          constructor
          · intro run
            cases run
          · intro file
            obtain ⟨body, trailing, pairs, split, formed, -⟩ := file.payload
            rw [(accepts_pairs _ pairs trailing).mpr ⟨body, split, formed⟩] at read
            cases read
        | ok answer =>
          obtain ⟨pairs, trailing⟩ := answer
          simp only [storeOfPairs_eq_ok_iff]
          constructor
          · intro kept
            obtain ⟨body, split, formed⟩ := (accepts_pairs _ pairs trailing).mp read
            exact ⟨Nat.le_of_not_lt size, Decidable.not_not.mp marked,
              (Decidable.not_not.mp whole).symm, body,
              trailing, pairs, split, formed, kept⟩
          · intro file
            obtain ⟨body, others, pairs', split, formed, kept⟩ := file.payload
            rw [(accepts_pairs _ pairs' others).mpr ⟨body, split, formed⟩] at read
            cases read
            exact kept

/-- What follows the payload is of no account. -/
theorem decode_sealed {body : Bytes} {pairs : List (String × Record)}
    (formed : IsPayload body pairs) (trailing : Bytes) :
    decode (sealed (body ++ trailing)) = storeOfPairs pairs := by
  have digest := Sha256.length_digest (body ++ trailing)
  have rest : (sealed (body ++ trailing)).drop magic.length =
      Sha256.digest (body ++ trailing) ++ (body ++ trailing) := by
    rw [sealed, List.append_assoc, List.drop_left]
  have size : ¬ (sealed (body ++ trailing)).length < magic.length + 32 := by
    rw [sealed, List.length_append, List.length_append, digest]
    omega
  have marked : (sealed (body ++ trailing)).take magic.length = magic := by
    rw [sealed, List.append_assoc, List.take_left]
  have read := (accepts_pairs (body ++ trailing) pairs trailing).mpr ⟨body, rfl, formed⟩
  unfold decode
  simp only [rest, List.drop_left' digest, List.take_left' digest, if_neg size, marked, read,
    ne_eq, not_true_eq_false, ↓reduceIte]

/-- Decoding answers the store of a file and refuses everything else. The payload is taken apart
piece by piece, never in more pieces than it has bytes, whatever it announces; and what follows it
is of no account. -/
theorem decode_accepts_exactly (bytes : Bytes) :
    (∀ store, decode bytes = .ok store ↔ IsFile bytes store) ∧
    ((∃ problem, decode bytes = .error problem) ↔ ∀ store, ¬ IsFile bytes store) ∧
    (∃ pieces answer rest, Run readPairs (bytes.drop 40) pieces answer rest ∧
      readPairs.run (bytes.drop 40) = answer.map (·, rest) ∧
      pieces.flatten ++ rest = bytes.drop 40 ∧ pieces.length ≤ pieces.flatten.length) ∧
    ∀ body trailing pairs, IsPayload body pairs →
      decode (sealed (body ++ trailing)) = decode (sealed body) := by
  refine ⟨fun store => decode_eq_ok_iff, ?_, ?_, ?_⟩
  · constructor
    · rintro ⟨problem, refused⟩ store file
      rw [decode_eq_ok_iff.mpr file] at refused
      cases refused
    · intro foreign
      cases decoded : decode bytes with
      | error problem => exact ⟨problem, rfl⟩
      | ok store => exact absurd (decode_eq_ok_iff.mp decoded) (foreign store)
  · obtain ⟨pieces, answer, rest, run, few⟩ := thrifty_pairs (bytes.drop 40)
    exact ⟨pieces, answer, rest, run, run.answers, run.flatten, few⟩
  · intro body trailing pairs formed
    have alone := decode_sealed formed []
    rw [List.append_nil] at alone
    rw [decode_sealed formed trailing, alone]

end ClassCoverage.Metadata
