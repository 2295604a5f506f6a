import AccessControl.Chain

namespace AccessControl

/-- The outcome of the rest of a chain whose outcomes are already known. -/
def Tally.through (t : Tally) : List (ControlFlag × Outcome) → ChainOutcome
  | [] => t.finish
  | (flag, outcome) :: rest =>
    match t.record flag outcome with
    | .error ended => ended
    | .ok next => next.through rest

theorem Tally.through_eq_runSteps (t : Tally) (steps : List (ControlFlag × Outcome)) :
    t.through steps = Id.run (runSteps t (steps.map fun s => (s.1, pure s.2))) := by
  induction steps generalizing t with
  | nil => rfl
  | cons step rest ih =>
    simp only [through, List.map_cons, runSteps, pure_bind]
    cases t.record step.1 step.2 with
    | error ended => rfl
    | ok next => exact ih next

theorem aggregate_eq_through (steps : List (ControlFlag × Outcome)) : aggregate steps = Tally.start.through steps :=
  (Tally.start.through_eq_runSteps steps).symm

theorem Tally.record_ok_evaluated {t next : Tally} {flag : ControlFlag} {outcome : Outcome}
    (recorded : t.record flag outcome = .ok next) : next.evaluated = t.evaluated + 1 := by
  unfold record at recorded
  split at recorded
  · cases recorded; rfl
  · cases flag with
    | required => cases recorded; rfl
    | optional => cases recorded; rfl
    | requisite =>
      simp only at recorded
      split at recorded <;> cases recorded
      rfl
    | sufficient =>
      simp only at recorded
      split at recorded <;> cases recorded
      rfl

/-- The two ways in which a step ends its chain. -/
theorem Tally.record_error_cases {t : Tally} {flag : ControlFlag} {outcome : Outcome} {ended : ChainOutcome}
    (recorded : t.record flag outcome = .error ended) :
    (flag = .requisite ∧ outcome.isFailure = true ∧ ended = (t.note flag outcome).stop .deny outcome.error?) ∨
      (flag = .sufficient ∧ outcome.isFailure = false ∧ t.mandatoryFailed = false ∧
        ended = (t.note flag outcome).stop .permit none) := by
  unfold record at recorded
  split at recorded
  · cases recorded
  · cases flag with
    | required => cases recorded
    | optional => cases recorded
    | requisite =>
      simp only at recorded
      split at recorded
      · rename_i failed
        cases recorded
        exact .inl ⟨rfl, failed, rfl⟩
      · cases recorded
    | sufficient =>
      simp only at recorded
      split at recorded
      · rename_i permits
        simp only [Bool.and_eq_true, Bool.not_eq_true'] at permits
        cases recorded
        exact .inr ⟨rfl, permits.1, permits.2, rfl⟩
      · cases recorded

theorem Tally.record_error_evaluated {t : Tally} {flag : ControlFlag} {outcome : Outcome} {ended : ChainOutcome}
    (recorded : t.record flag outcome = .error ended) : ended.evaluated = t.evaluated + 1 := by
  rcases record_error_cases recorded with ⟨_, _, same⟩ | ⟨_, _, _, same⟩
  · rw [same]
    rfl
  · rw [same]
    rfl

theorem Tally.record_error_decidingError {t : Tally} {flag : ControlFlag} {outcome : Outcome} {ended : ChainOutcome}
    {e : Error} (recorded : t.record flag outcome = .error ended) (decided : ended.decidingError = some e) :
    outcome = .error e := by
  rcases record_error_cases recorded with ⟨_, _, same⟩ | ⟨_, _, _, same⟩
  · rw [same] at decided
    cases outcome <;> cases decided
    rfl
  · rw [same] at decided
    cases decided

theorem Tally.evaluated_le_through (t : Tally) (steps : List (ControlFlag × Outcome)) :
    t.evaluated ≤ (t.through steps).evaluated := by
  induction steps generalizing t with
  | nil => exact Nat.le_refl _
  | cons step rest ih =>
    simp only [through]
    split
    · rename_i recorded
      have counted := Tally.record_error_evaluated recorded
      omega
    · rename_i next recorded
      have counted := Tally.record_ok_evaluated recorded
      have later := ih next
      omega

theorem Tally.through_evaluated_le (t : Tally) (steps : List (ControlFlag × Outcome)) :
    (t.through steps).evaluated ≤ t.evaluated + steps.length := by
  induction steps generalizing t with
  | nil => exact Nat.le_refl _
  | cons step rest ih =>
    simp only [through, List.length_cons]
    split
    · rename_i recorded
      have counted := Tally.record_error_evaluated recorded
      omega
    · rename_i next recorded
      have counted := Tally.record_ok_evaluated recorded
      have later := ih next
      omega

theorem aggregate_evaluated_le (steps : List (ControlFlag × Outcome)) :
    (aggregate steps).evaluated ≤ steps.length := by
  rw [aggregate_eq_through]
  exact Nat.le_trans (Tally.start.through_evaluated_le steps) (Nat.le_of_eq (Nat.zero_add _))

/-- The error that ends a chain is one that a step of it gave. -/
theorem Tally.through_decidingError {t : Tally} {steps : List (ControlFlag × Outcome)} {e : Error}
    (decided : (t.through steps).decidingError = some e) : ∃ step ∈ steps, step.2 = .error e := by
  induction steps generalizing t with
  | nil => cases decided
  | cons step rest ih =>
    obtain ⟨flag, outcome⟩ := step
    simp only [through] at decided
    cases recorded : t.record flag outcome with
    | ok next =>
      rw [recorded] at decided
      obtain ⟨later, member, failed⟩ := ih decided
      exact ⟨later, List.mem_cons_of_mem _ member, failed⟩
    | error ended =>
      rw [recorded] at decided
      exact ⟨(flag, outcome), List.mem_cons_self, record_error_decidingError recorded decided⟩

theorem aggregate_decidingError {steps : List (ControlFlag × Outcome)} {e : Error}
    (decided : (aggregate steps).decidingError = some e) : ∃ step ∈ steps, step.2 = .error e := by
  rw [aggregate_eq_through] at decided
  exact Tally.through_decidingError decided

theorem aggregate_decidingError_eq_none {steps : List (ControlFlag × Outcome)}
    (sound : ∀ step ∈ steps, step.2.error? = none) : (aggregate steps).decidingError = none := by
  cases decided : (aggregate steps).decidingError with
  | none => rfl
  | some e =>
    obtain ⟨step, member, failed⟩ := aggregate_decidingError decided
    have clean := sound step member
    rw [failed] at clean
    cases clean

/-- Running a chain does exactly what its evaluated steps do, once each and in order, and gives the outcome of
combining their outcomes. No step behind the end of the chain is touched, whatever its effect would be. -/
theorem runSteps_visits {m : Type → Type} [Monad m] [LawfulMonad m] {α : Type} (flag : α → ControlFlag)
    (outcome : α → Outcome) (visit : α → m Unit) (t : Tally) (steps : List α) :
    runSteps t (steps.map fun a => (flag a, do visit a; pure (outcome a))) = (do
      forM (steps.take ((t.through (steps.map fun a => (flag a, outcome a))).evaluated - t.evaluated)) visit
      pure (t.through (steps.map fun a => (flag a, outcome a)))) := by
  induction steps generalizing t with
  | nil => simp [runSteps, Tally.through]
  | cons step rest ih =>
    simp only [List.map_cons, runSteps, Tally.through, bind_assoc, pure_bind]
    cases recorded : t.record (flag step) (outcome step) with
    | error ended =>
      have counted := Tally.record_error_evaluated recorded
      have one : ended.evaluated - t.evaluated = 1 := by omega
      simp [one]
    | ok next =>
      have counted := Tally.record_ok_evaluated recorded
      have later := next.evaluated_le_through (rest.map fun a => (flag a, outcome a))
      have more : (next.through (rest.map fun a => (flag a, outcome a))).evaluated - t.evaluated =
          (next.through (rest.map fun a => (flag a, outcome a))).evaluated - next.evaluated + 1 := by omega
      simp only [ih next, more, List.take_succ_cons, List.forM_cons, bind_assoc]

theorem runChain_visits {m : Type → Type} [Monad m] [LawfulMonad m] {α : Type} (flag : α → ControlFlag)
    (outcome : α → Outcome) (visit : α → m Unit) (steps : List α) :
    runChain (steps.map fun a => (flag a, do visit a; pure (outcome a))) = (do
      forM (steps.take (aggregate (steps.map fun a => (flag a, outcome a))).evaluated) visit
      pure (aggregate (steps.map fun a => (flag a, outcome a)))) := by
  rw [aggregate_eq_through]
  exact runSteps_visits flag outcome visit .start steps

/-- Changes of a state made one after another are one change by a fold. -/
theorem forM_modify {α σ : Type} (change : α → σ → σ) (items : List α) (s : σ) :
    (forM items fun a => (modify (change a) : StateM σ Unit)).run s = ((), items.foldl (fun s a => change a s) s) := by
  induction items generalizing s with
  | nil => rfl
  | cons item rest ih => exact ih (change item s)

end AccessControl
