import ClassCoverage.Proofs.StepRuns
import ClassCoverage.Proofs.StoreOrder
import ClassCoverage.Rewriter.Marking

/-! The records that a rewriter registers. Each class that is transformed brings one record, and no
call takes anything out of the store. -/
namespace ClassCoverage

/-- The rewriter registers one record exactly when it transforms a class. -/
structure Rewriter.Registers {σ : Type} (rewriter : Rewriter σ) : Prop where
  transformed {name content bench answer bench'} :
    (rewriter name content).run.run bench = (.ok answer, bench') → answer.transformed = true →
      ∃ record, bench.store.insert record = .ok bench'.store
  untouched {name content bench answer bench'} :
    (rewriter name content).run.run bench = (.ok answer, bench') → answer.transformed = false →
      bench'.store = bench.store

namespace Rewriter.Registers
variable {σ : Type} {rewriter : Rewriter σ}

theorem includes (registers : rewriter.Registers) {name : String} {content : Bytes}
    {bench bench' : Bench σ} {answer : Rewritten}
    (answered : (rewriter name content).run.run bench = (.ok answer, bench')) :
    bench'.store.Includes bench.store := by
  cases changed : answer.transformed with
  | true =>
    obtain ⟨record, inserted⟩ := registers.transformed answered changed
    exact (Store.includes_of_insert inserted).1
  | false =>
    rw [registers.untouched answered changed]
    exact .refl bench.store

end Rewriter.Registers

theorem Rewriting.register_ok {σ : Type} {record : Record} {bench bench' : Bench σ}
    (run : (register record).run.run bench = (.ok (), bench')) :
    bench.store.insert record = .ok bench'.store := by
  rw [run_register] at run
  cases inserted : bench.store.insert record with
  | error conflict =>
    rw [inserted] at run
    cases run
  | ok store =>
    rw [inserted] at run
    cases run
    rfl

namespace Marking

private theorem recordFor_ok {marking : Marking} {entry : String} {record : Record}
    {bench bench' : Bench Nat}
    (run : (marking.recordFor entry).run.run bench = (.ok record, bench')) : bench' = bench := by
  unfold recordFor at run
  simp only at run
  split at run
  · cases run
    rfl
  · obtain ⟨name, middle, named, answered⟩ := Steps.run_bind_ok run
    cases answered
    unfold Rewriting.classNameOf at named
    split at named
    · cases named
      rfl
    · cases named

/-- A marking rewriter either leaves a class and the store alone, or registers a record. -/
theorem rewriter_ok {marking : Marking} {entry : String} {content : Bytes} {answer : Rewritten}
    {bench bench' : Bench Nat}
    (run : (marking.rewriter entry content).run.run bench = (.ok answer, bench')) :
    (answer.transformed = false ∧ bench'.store = bench.store) ∨
      (answer.transformed = true ∧ ∃ record, bench.store.insert record = .ok bench'.store) := by
  unfold rewriter at run
  rw [Steps.run_bind, Steps.run_get] at run
  simp only at run
  rw [Steps.run_bind, Steps.run_modify] at run
  simp only at run
  split at run
  · cases run
  · split at run
    · cases run
      exact .inl ⟨rfl, rfl⟩
    · obtain ⟨record, middle, named, run⟩ := Steps.run_bind_ok run
      obtain ⟨_, after, registered, answered⟩ := Steps.run_bind_ok run
      obtain rfl := recordFor_ok named
      have inserted := Rewriting.register_ok registered
      cases answered
      exact .inr ⟨rfl, record, inserted⟩

theorem registers (marking : Marking) : marking.rewriter.Registers where
  transformed run changed := by
    rcases rewriter_ok run with ⟨same, _⟩ | ⟨_, inserted⟩
    · rw [same] at changed
      cases changed
    · exact inserted
  untouched run same := by
    rcases rewriter_ok run with ⟨_, kept⟩ | ⟨changed, _⟩
    · exact kept
    · rw [same] at changed
      cases changed

end Marking
end ClassCoverage
