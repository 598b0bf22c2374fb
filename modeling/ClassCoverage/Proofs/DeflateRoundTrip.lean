import ClassCoverage.Archive.Deflate
import ClassCoverage.Proofs.StepRuns

/-! What was packed into stored blocks is expanded again. Each block leaves the reader at a byte
boundary, so the blocks can be followed one by one. -/
namespace ClassCoverage.Deflate

private theorem run_nextByte (byte : UInt8) (bits : List Bool) (input : Bytes)
    (output : Array UInt8) :
    nextByte.run.run ⟨bits, byte :: input, output⟩ = (.ok byte, ⟨bits, input, output⟩) := rfl

private theorem run_copyBytes (content rest : Bytes) (bits : List Bool) (output : Array UInt8) :
    (copyBytes content.length).run.run ⟨bits, content ++ rest, output⟩ =
      (.ok (), ⟨bits, rest, output ++ content.toArray⟩) := by
  induction content generalizing output with
  | nil =>
    rw [Array.append_empty]
    rfl
  | cons byte content ih =>
    rw [List.length_cons, copyBytes, Steps.run_bind, List.cons_append, run_nextByte]
    simp only
    rw [emit, Steps.run_bind, Steps.run_modify]
    simp only
    rw [ih, List.toArray_cons, Array.push_eq_append, Array.append_assoc]

private theorem run_nextPair {number : Nat} (small : number < 65536) (bits : List Bool)
    (rest : Bytes) (output : Array UInt8) :
    nextPair.run.run ⟨bits, Bytes.ofNat 2 number ++ rest, output⟩ =
      (.ok number, ⟨bits, rest, output⟩) := by
  have same : Bytes.toNat (Bytes.ofNat 2 number) = number := by
    rw [Bytes.toNat_ofNat]
    exact Nat.mod_eq_of_lt small
  exact congrArg (fun read => (Except.ok read, State.mk bits rest output)) same

private theorem run_expandStored {content : Bytes} (small : content.length ≤ blockLimit)
    (bits : List Bool) (rest : Bytes) (output : Array UInt8) :
    expandStored.run.run ⟨bits, Bytes.ofNat 2 content.length ++
        (Bytes.ofNat 2 (65535 - content.length) ++ (content ++ rest)), output⟩ =
      (.ok (), ⟨[], rest, output ++ content.toArray⟩) := by
  have limit : blockLimit = 65535 := rfl
  unfold expandStored
  rw [Steps.run_bind, Steps.run_modify]
  simp only
  rw [Steps.run_bind, run_nextPair (by omega)]
  simp only
  rw [Steps.run_bind, run_nextPair (by omega)]
  simp only
  rw [if_neg (by omega)]
  exact run_copyBytes content rest [] output

/-- The first bit of a stored block says whether it is the last one. -/
theorem run_lastBit (last : Bool) (input : Bytes) (output : Array UInt8) :
    nextBit.run.run ⟨[], (if last then 1 else 0) :: input, output⟩ =
      (.ok last, ⟨List.replicate 7 false, input, output⟩) := by
  cases last <;> rfl

private theorem run_storedKind (input : Bytes) (output : Array UInt8) :
    (nextNumber 2).run.run ⟨List.replicate 7 false, input, output⟩ =
      (.ok 0, ⟨List.replicate 5 false, input, output⟩) := rfl

private theorem run_storedBlock {content : Bytes} (small : content.length ≤ blockLimit)
    (last : Bool) (size room : Nat) (rest : Bytes) (output : Array UInt8) :
    (expandBlocks size (room + 1)).run.run ⟨[], storedBlock last content ++ rest, output⟩ =
      if last then (.ok (), ⟨[], rest, output ++ content.toArray⟩)
      else (expandBlocks size room).run.run ⟨[], rest, output ++ content.toArray⟩ := by
  have block : storedBlock last content ++ rest = (if last then 1 else 0) ::
      (Bytes.ofNat 2 content.length ++ (Bytes.ofNat 2 (65535 - content.length) ++
        (content ++ rest))) := by
    simp [storedBlock]
  rw [expandBlocks, block, Steps.run_bind, run_lastBit]
  simp only
  rw [Steps.run_bind, run_storedKind]
  simp only
  rw [Steps.run_bind, run_expandStored small]
  cases last <;> rfl

private theorem run_pack (content : Bytes) (size : Nat) {room : Nat}
    (enough : (pack content).length < room) (output : Array UInt8) :
    (expandBlocks size room).run.run ⟨[], pack content, output⟩ =
      (.ok (), ⟨[], [], output ++ content.toArray⟩) := by
  induction content using pack.induct generalizing room output with
  | case1 content small =>
    rw [pack, if_pos small] at enough ⊢
    cases room with
    | zero => omega
    | succ room =>
      rw [← List.append_nil (storedBlock true content)]
      exact run_storedBlock small true size room [] output
  | case2 content large ih =>
    rw [pack, if_neg large] at enough ⊢
    have first : (content.take blockLimit).length ≤ blockLimit := by
      rw [List.length_take]
      omega
    cases room with
    | zero => omega
    | succ room =>
      rw [List.length_append] at enough
      have progress : 0 < (storedBlock false (content.take blockLimit)).length := by
        simp [storedBlock]
      have joined : (content.take blockLimit).toArray ++ (content.drop blockLimit).toArray =
          content.toArray := by
        rw [List.append_toArray, List.take_append_drop]
      rw [run_storedBlock first, ih (by omega), Array.append_assoc, joined]
      rfl

/-- Expanding undoes packing. -/
theorem expand?_pack (content : Bytes) : expand? (pack content) = some content := by
  have enough : (pack content).length < 8 * (pack content).length + 1 := by omega
  simp only [expand?, run_pack content _ enough]
  simp

end ClassCoverage.Deflate
