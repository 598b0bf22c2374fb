import ClassCoverage.Rewriter

/-! Runs of steps that can fail. A run answers with a result and the state it leaves behind, also
when the result is a failure. -/
namespace ClassCoverage

namespace Steps
variable {ε σ α β : Type}

/-- Steps are known by their runs. -/
theorem ext {one other : ExceptT ε (StateM σ) α}
    (same : ∀ state, one.run.run state = other.run.run state) : one = other :=
  funext same

private theorem run_pure (value : α) (state : σ) :
    (pure value : ExceptT ε (StateM σ) α).run.run state = (.ok value, state) := rfl

theorem run_throw (fault : ε) (state : σ) :
    (throw fault : ExceptT ε (StateM σ) α).run.run state = (.error fault, state) := rfl

theorem run_get (state : σ) :
    (get : ExceptT ε (StateM σ) σ).run.run state = (.ok state, state) := rfl

theorem run_set (new state : σ) :
    (set new : ExceptT ε (StateM σ) PUnit).run.run state = (.ok ⟨⟩, new) := rfl

theorem run_modify (change : σ → σ) (state : σ) :
    (modify change : ExceptT ε (StateM σ) PUnit).run.run state = (.ok ⟨⟩, change state) := rfl

theorem run_bind (step : ExceptT ε (StateM σ) α) (next : α → ExceptT ε (StateM σ) β) (state : σ) :
    (step >>= next).run.run state =
      match step.run.run state with
      | (.ok value, state) => (next value).run.run state
      | (.error fault, state) => (.error fault, state) := by
  simp only [bind, ExceptT.bind, ExceptT.mk, ExceptT.run, ExceptT.bindCont, StateT.bind, StateT.run]
  cases step state with
  | mk result after => cases result <;> rfl

theorem run_map (f : α → β) (step : ExceptT ε (StateM σ) α) (state : σ) :
    (f <$> step).run.run state = ((step.run.run state).1.map f, (step.run.run state).2) := by
  rw [map_eq_pure_bind, run_bind]
  cases step.run.run state with
  | mk result after => cases result <;> rfl

/-- A handler takes over where the step that failed left off. -/
theorem run_tryCatch (step : ExceptT ε (StateM σ) α) (handler : ε → ExceptT ε (StateM σ) α)
    (state : σ) :
    (tryCatch step handler).run.run state =
      match step.run.run state with
      | (.ok value, state) => (.ok value, state)
      | (.error fault, state) => (handler fault).run.run state := by
  simp only [tryCatch, tryCatchThe, MonadExceptOf.tryCatch, ExceptT.tryCatch, ExceptT.mk,
    ExceptT.run, bind, StateT.bind, StateT.run]
  cases step state with
  | mk result after => cases result <;> rfl

/-- A step that succeeded is made of two that did. -/
theorem run_bind_ok {step : ExceptT ε (StateM σ) α} {next : α → ExceptT ε (StateM σ) β}
    {state after : σ} {value : β} (run : (step >>= next).run.run state = (.ok value, after)) :
    ∃ first middle, step.run.run state = (.ok first, middle) ∧
      (next first).run.run middle = (.ok value, after) := by
  rw [run_bind] at run
  cases result : step.run.run state with
  | mk outcome middle => cases outcome with
    | error fault =>
      rw [result] at run
      cases run
    | ok first =>
      rw [result] at run
      exact ⟨first, middle, rfl, run⟩

/-! Steps that only look leave the state as it was, whatever they answer. -/

theorem state_of_bind {step : ExceptT ε (StateM σ) α} {next : α → ExceptT ε (StateM σ) β}
    {state : σ} (first : (step.run.run state).2 = state)
    (later : ∀ value, ((next value).run.run state).2 = state) :
    ((step >>= next).run.run state).2 = state := by
  rw [run_bind]
  cases result : step.run.run state with
  | mk outcome middle =>
    rw [result] at first
    cases first
    cases outcome with
    | error fault => rfl
    | ok value => exact later value

theorem state_of_mapM {step : α → ExceptT ε (StateM σ) β} {items : List α} {state : σ}
    (looks : ∀ item ∈ items, ((step item).run.run state).2 = state) :
    ((items.mapM step).run.run state).2 = state := by
  induction items with
  | nil => rfl
  | cons item items ih =>
    rw [List.mapM_cons]
    refine state_of_bind (looks item (List.mem_cons_self ..)) fun value => ?_
    refine state_of_bind (ih fun other member => looks other (List.mem_cons_of_mem item member)) ?_
    exact fun _ => rfl

/-- Every answer was given to one of the items. -/
theorem mem_of_mapM_ok {step : α → ExceptT ε (StateM σ) β} {items : List α} {state after : σ}
    {answers : List β} (looks : ∀ item ∈ items, ((step item).run.run state).2 = state)
    (run : (items.mapM step).run.run state = (.ok answers, after)) :
    ∀ answer ∈ answers, ∃ item ∈ items, (step item).run.run state = (.ok answer, state) := by
  induction items generalizing answers after with
  | nil =>
    cases run
    intro answer impossible
    cases impossible
  | cons item items ih =>
    rw [List.mapM_cons] at run
    obtain ⟨first, middle, own, run⟩ := run_bind_ok run
    obtain ⟨others, _, later, answered⟩ := run_bind_ok run
    cases answered
    have same : middle = state := by
      have kept := looks item (List.mem_cons_self ..)
      rwa [own] at kept
    subst same
    intro answer member
    rcases List.mem_cons.mp member with rfl | member
    · exact ⟨item, List.mem_cons_self .., own⟩
    · obtain ⟨other, held, given⟩ :=
        ih (fun other held => looks other (List.mem_cons_of_mem item held)) later answer member
      exact ⟨other, List.mem_cons_of_mem item held, given⟩

end Steps

namespace Action
variable {α : Type} {operation : String} {path : Path}

theorem run_change_ok {step : Disk → Except Fault Disk} {disk disk' : Disk}
    (done : step disk = .ok disk') :
    (change operation path step).run.run disk = (.ok (), disk') := by
  unfold change
  rw [Steps.run_bind, Steps.run_get]
  simp only [done]
  exact Steps.run_set disk' disk

theorem run_change_error {step : Disk → Except Fault Disk} {disk : Disk} {fault : Fault}
    (failed : step disk = .error fault) :
    (change operation path step).run.run disk =
      (.error (.io operation (some path) (some fault)), disk) := by
  unfold change
  rw [Steps.run_bind, Steps.run_get]
  simp only [failed]
  exact Steps.run_throw _ disk

theorem run_look_ok {step : Disk → Except Fault α} {disk : Disk} {value : α}
    (done : step disk = .ok value) :
    (look operation path step).run.run disk = (.ok value, disk) := by
  unfold look
  rw [Steps.run_bind, Steps.run_get]
  simp only [done]
  exact Steps.run_pure value disk

theorem run_look_error {step : Disk → Except Fault α} {disk : Disk} {fault : Fault}
    (failed : step disk = .error fault) :
    (look operation path step).run.run disk =
      (.error (.io operation (some path) (some fault)), disk) := by
  unfold look
  rw [Steps.run_bind, Steps.run_get]
  simp only [failed]
  exact Steps.run_throw _ disk

theorem change_ok {step : Disk → Except Fault Disk} {disk disk' : Disk}
    (run : (change operation path step).run.run disk = (.ok (), disk')) :
    step disk = .ok disk' := by
  cases done : step disk with
  | error fault =>
    rw [run_change_error done] at run
    cases run
  | ok result =>
    rw [run_change_ok done] at run
    cases run
    rfl

theorem look_ok {step : Disk → Except Fault α} {disk disk' : Disk} {value : α}
    (run : (look operation path step).run.run disk = (.ok value, disk')) :
    step disk = .ok value ∧ disk' = disk := by
  cases done : step disk with
  | error fault =>
    rw [run_look_error done] at run
    cases run
  | ok result =>
    rw [run_look_ok done] at run
    cases run
    exact ⟨rfl, rfl⟩

theorem state_of_look (step : Disk → Except Fault α) (disk : Disk) :
    ((look operation path step).run.run disk).2 = disk := by
  cases done : step disk with
  | error fault => rw [run_look_error done]
  | ok value => rw [run_look_ok done]

theorem run_ofExcept {ε : Type} (wrap : ε → Failure) (result : Except ε α) (disk : Disk) :
    (ofExcept wrap result).run.run disk = (result.mapError wrap, disk) := by
  cases result <;> rfl

theorem ofExcept_ok {ε : Type} {wrap : ε → Failure} {result : Except ε α} {value : α}
    {disk disk' : Disk} (run : (ofExcept wrap result).run.run disk = (.ok value, disk')) :
    result = .ok value ∧ disk' = disk := by
  rw [run_ofExcept] at run
  cases result with
  | error problem => cases run
  | ok own =>
    cases run
    exact ⟨rfl, rfl⟩

end Action

namespace Work
variable {σ α : Type}

theorem run_onDisk (action : Action α) (shop : Workshop σ) :
    (onDisk action).run.run shop =
      ((action.run.run shop.disk).1, { shop with disk := (action.run.run shop.disk).2 }) := by
  unfold onDisk
  rw [Steps.run_bind, Steps.run_get]
  cases result : action.run.run shop.disk with
  | mk outcome disk =>
    simp only [result]
    rw [Steps.run_bind, Steps.run_modify]
    cases outcome <;> rfl

theorem onDisk_ok {action : Action α} {shop shop' : Workshop σ} {value : α}
    (run : (onDisk action).run.run shop = (.ok value, shop')) :
    action.run.run shop.disk = (.ok value, shop'.disk) ∧ shop'.bench = shop.bench := by
  rw [run_onDisk] at run
  obtain ⟨answered, rfl⟩ := Prod.mk.inj run
  exact ⟨Prod.ext answered rfl, rfl⟩

end Work

theorem Rewriting.run_register {σ : Type} (record : Record) (bench : Bench σ) :
    (register record).run.run bench =
      match bench.store.insert record with
      | .ok store => (.ok (), { bench with store := store })
      | .error conflict => (.error (.ofConflict conflict), bench) := by
  unfold register
  rw [Steps.run_bind, Steps.run_get]
  simp only
  cases bench.store.insert record <;> rfl

end ClassCoverage
