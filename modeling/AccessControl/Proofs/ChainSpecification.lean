import AccessControl.Proofs.ChainRun
import Mathlib.Data.Nat.Find
import Mathlib.Order.Bounds.Basic

namespace AccessControl

/-- A step ends its chain when it is a requisite step that fails, or a sufficient step that permits while no required
step among those seen before it has failed. -/
def EndsAfter (seen : List (ControlFlag × Outcome)) (step : ControlFlag × Outcome) : Prop :=
  step.1 = .requisite ∧ step.2.isFailure ∨
    step.1 = .sufficient ∧ step.2 = .permit ∧ ¬∃ s ∈ seen, s.1 = .required ∧ s.2.isFailure

instance (seen : List (ControlFlag × Outcome)) (step : ControlFlag × Outcome) : Decidable (EndsAfter seen step) :=
  inferInstanceAs (Decidable (_ ∨ _))

/-- The step at this place exists and would end the chain, should it be reached. -/
def EndsAt (steps : List (ControlFlag × Outcome)) (place : Nat) : Prop :=
  ∃ step, steps[place]? = some step ∧ EndsAfter (steps.take place) step

/-- The failing steps of a chain with their places. -/
def failuresOf (steps : List (ControlFlag × Outcome)) : List StepFailure :=
  steps.zipIdx.filterMap fun (step, index) =>
    if step.2.isFailure then some ⟨index, step.1, step.2.error?⟩ else none

/-- The decision that the flags prescribe for a chain that no step ends. -/
def completedDecision (steps : List (ControlFlag × Outcome)) : ChainDecision :=
  if ∃ s ∈ steps, s.1 = .required ∧ s.2.isFailure then .deny
  else if ∃ s ∈ steps, s.1.isMandatory ∧ s.2 ≠ .abstain then .permit
  else if ∃ s ∈ steps, s.1 = .sufficient ∧ s.2 ≠ .abstain then .deny
  else if ∃ s ∈ steps, s.1 = .optional ∧ s.2 = .permit then .permit
  else if ∃ s ∈ steps, s.1 = .optional ∧ s.2.isFailure then .deny
  else .abstain

/-- Steps that write down their places when they are run. -/
def numbered (steps : List (ControlFlag × Outcome)) : List (ControlFlag × StateM (List Nat) Outcome) :=
  steps.zipIdx.map fun s => (s.1.1, do modify (· ++ [s.2]); pure s.1.2)

/-- The tally after steps none of which ended the chain. Every field is read off the steps themselves. -/
def Tally.after (seen : List (ControlFlag × Outcome)) : Tally where
  evaluated := seen.length
  failures := failuresOf seen
  mandatoryFailed := decide (∃ s ∈ seen, s.1 = .required ∧ s.2.isFailure)
  mandatoryPresent := decide (∃ s ∈ seen, s.1.isMandatory ∧ s.2 ≠ .abstain)
  sufficientPresent := decide (∃ s ∈ seen, s.1 = .sufficient ∧ s.2 ≠ .abstain)
  optionalPresent := decide (∃ s ∈ seen, s.1 = .optional ∧ s.2 ≠ .abstain)
  optionalPermitted := decide (∃ s ∈ seen, s.1 = .optional ∧ s.2 = .permit)

theorem failuresOf_append (seen : List (ControlFlag × Outcome)) (step : ControlFlag × Outcome) :
    failuresOf (seen ++ [step]) =
      if step.2.isFailure then failuresOf seen ++ [⟨seen.length, step.1, step.2.error?⟩] else failuresOf seen := by
  unfold failuresOf
  rw [List.zipIdx_append, List.filterMap_append]
  by_cases failed : step.2.isFailure <;> simp [failed]

theorem exists_mem_append_singleton {α : Type} {p : α → Prop} {seen : List α} {step : α} :
    (∃ s ∈ seen ++ [step], p s) ↔ (∃ s ∈ seen, p s) ∨ p step := by
  simp only [List.mem_append, List.mem_singleton, or_and_right, exists_or, exists_eq_left]

/-- A step that does not end the chain leads from the tally of the steps seen to the tally that includes it. -/
theorem Tally.record_after {seen : List (ControlFlag × Outcome)} {step : ControlFlag × Outcome}
    (onward : ¬EndsAfter seen step) : (after seen).record step.1 step.2 = .ok (after (seen ++ [step])) := by
  obtain ⟨flag, outcome⟩ := step
  simp only [EndsAfter, not_or] at onward
  obtain ⟨requisite, sufficient⟩ := onward
  cases flag <;> cases outcome <;>
    simp_all [-List.mem_append, record, note, after, failuresOf_append, exists_mem_append_singleton]

/-- A step that ends the chain is still counted, and the error reported is the one that its outcome carries. -/
theorem Tally.record_after_of_ends {seen : List (ControlFlag × Outcome)} {step : ControlFlag × Outcome}
    (ends : EndsAfter seen step) :
    (after seen).record step.1 step.2 = .error
      ((after (seen ++ [step])).stop (if step.1 = .requisite then .deny else .permit) step.2.error?) := by
  obtain ⟨flag, outcome⟩ := step
  rcases ends with ⟨isRequisite, failed⟩ | ⟨isSufficient, permits, unfailed⟩
  · simp only at isRequisite failed
    subst isRequisite
    cases outcome <;> simp_all [record, note, stop, after, failuresOf_append]
  · simp only at isSufficient permits
    subst isSufficient permits
    simp [record, note, stop, after, failuresOf_append, unfailed]

theorem Tally.after_nil : after [] = start := rfl

theorem Tally.after_decision (steps : List (ControlFlag × Outcome)) :
    (after steps).decision = completedDecision steps := by
  have decisive : (∃ s ∈ steps, s.1 = .optional ∧ s.2 ≠ .abstain) ↔
      (∃ s ∈ steps, s.1 = .optional ∧ s.2 = .permit) ∨ ∃ s ∈ steps, s.1 = .optional ∧ s.2.isFailure := by
    rw [← exists_or]
    refine exists_congr fun s => ?_
    cases s.2 <;> simp
  simp only [decision, after, completedDecision, decide_eq_true_eq, decisive]
  by_cases permitted : ∃ s ∈ steps, s.1 = .optional ∧ s.2 = .permit
  · simp only [permitted, true_or, if_true]
  · simp only [permitted, false_or, if_false]

/-- As long as no step ends the chain, its tally is that of the steps seen. -/
theorem aggregate_eq_through_drop {steps : List (ControlFlag × Outcome)} {n : Nat} (bound : n ≤ steps.length)
    (onward : ∀ i < n, ¬EndsAt steps i) : aggregate steps = (Tally.after (steps.take n)).through (steps.drop n) := by
  induction n with
  | zero => rw [List.take_zero, List.drop_zero, Tally.after_nil, aggregate_eq_through]
  | succ n ih =>
    have inside : n < steps.length := bound
    have passed : ¬EndsAfter (steps.take n) steps[n] := fun ends =>
      onward n (Nat.lt_succ_self n) ⟨steps[n], List.getElem?_eq_getElem inside, ends⟩
    rw [ih inside.le fun i before => onward i (Nat.lt_succ_of_lt before), List.drop_eq_getElem_cons inside]
    simp only [Tally.through, Tally.record_after passed, List.take_append_getElem]

theorem aggregate_of_first_end {steps : List (ControlFlag × Outcome)} {s : Nat}
    (first : IsLeast {i | EndsAt steps i} s) :
    ∃ step, steps[s]? = some step ∧ EndsAfter (steps.take s) step ∧ aggregate steps =
      (Tally.after (steps.take (s + 1))).stop (if step.1 = .requisite then .deny else .permit) step.2.error? := by
  obtain ⟨⟨step, atStep, ends⟩, least⟩ := first
  obtain ⟨inside, same⟩ := List.getElem?_eq_some_iff.mp atStep
  have onward : ∀ i < s, ¬EndsAt steps i := fun i before endsEarlier =>
    absurd (least endsEarlier) (Nat.not_le.mpr before)
  refine ⟨step, atStep, ends, ?_⟩
  rw [aggregate_eq_through_drop inside.le onward, List.drop_eq_getElem_cons inside, same]
  simp only [Tally.through, Tally.record_after_of_ends ends, List.take_add_one, atStep, Option.toList_some]

theorem aggregate_evaluated_of_first_end {steps : List (ControlFlag × Outcome)} {s : Nat}
    (first : IsLeast {i | EndsAt steps i} s) : (aggregate steps).evaluated = s + 1 := by
  obtain ⟨step, atStep, _, outcome⟩ := aggregate_of_first_end first
  have inside : s < steps.length := (List.getElem?_eq_some_iff.mp atStep).1
  simp only [outcome, Tally.stop, Tally.after, List.length_take]
  omega

theorem aggregate_of_no_end {steps : List (ControlFlag × Outcome)} (onward : ∀ i, ¬EndsAt steps i) :
    aggregate steps = (Tally.after steps).finish := by
  rw [aggregate_eq_through_drop le_rfl fun i _ => onward i, List.take_length, List.drop_length, Tally.through]

/-- Running numbered steps writes down exactly the places of the evaluated ones, in order and each one once. -/
theorem runChain_numbered (steps : List (ControlFlag × Outcome)) :
    (runChain (numbered steps)).run [] =
      (aggregate steps, (List.range steps.length).take (aggregate steps).evaluated) := by
  have known : steps.zipIdx.map (fun s => (s.1.1, s.1.2)) = steps := List.zipIdx_map_fst 0 steps
  have run := runChain_visits (fun s => s.1.1) (fun s => s.1.2)
    (fun s => (modify (· ++ [s.2]) : StateM (List Nat) Unit)) steps.zipIdx
  rw [known] at run
  have log := forM_modify (fun s places => places ++ [s.2]) (steps.zipIdx.take (aggregate steps).evaluated) []
  rw [List.foldl_append_eq_append, List.nil_append, ← List.flatMap_def, ← List.map_eq_flatMap,
    List.map_take, List.zipIdx_map_snd, ← List.range_eq_range'] at log
  rw [numbered, run, StateT.run_bind, log]
  rfl

theorem exists_first_end {steps : List (ControlFlag × Outcome)} {i : Nat} (ends : EndsAt steps i) :
    ∃ s, IsLeast {i | EndsAt steps i} s := by
  classical
  have some : ∃ i, EndsAt steps i := ⟨i, ends⟩
  exact ⟨Nat.find some, Nat.find_spec some, fun _ later => Nat.find_min' some later⟩

theorem aggregate_failures (steps : List (ControlFlag × Outcome)) :
    (aggregate steps).failures = failuresOf (steps.take (aggregate steps).evaluated) := by
  by_cases onward : ∀ i, ¬EndsAt steps i
  · rw [aggregate_of_no_end onward]
    simp only [Tally.finish, Tally.after, List.take_length]
  · obtain ⟨i, ends⟩ := not_forall_not.mp onward
    obtain ⟨s, first⟩ := exists_first_end ends
    obtain ⟨step, _, _, outcome⟩ := aggregate_of_first_end first
    rw [outcome]
    simp only [Tally.stop, Tally.after, List.length_take, ← List.take_eq_take_min]

/-- A chain runs up to the first step that ends it, and that step decides. Without such a step it runs through, and
the decision is the one that the flags prescribe for all the outcomes together. -/
theorem aggregate_follows_flags (steps : List (ControlFlag × Outcome)) :
    (∀ s, IsLeast {i | EndsAt steps i} s → ∃ flag outcome, steps[s]? = some (flag, outcome) ∧
      (runChain (numbered steps)).run [] = (aggregate steps, List.range (s + 1)) ∧
      (aggregate steps).evaluated = s + 1 ∧ (aggregate steps).stoppedEarly = true ∧
      (flag = .requisite ∧ (aggregate steps).decision = .deny ∧ (aggregate steps).decidingError = outcome.error? ∨
        flag = .sufficient ∧ (aggregate steps).decision = .permit ∧ (aggregate steps).decidingError = none)) ∧
    ((∀ i, ¬EndsAt steps i) →
      (runChain (numbered steps)).run [] = (aggregate steps, List.range steps.length) ∧
      (aggregate steps).evaluated = steps.length ∧ (aggregate steps).stoppedEarly = false ∧
      (aggregate steps).decidingError = none ∧ (aggregate steps).decision = completedDecision steps) ∧
    (aggregate steps).failures = failuresOf (steps.take (aggregate steps).evaluated) := by
  refine ⟨fun s first => ?_, fun onward => ?_, aggregate_failures steps⟩
  · obtain ⟨⟨flag, outcome⟩, atStep, ends, same⟩ := aggregate_of_first_end first
    have inside : s < steps.length := (List.getElem?_eq_some_iff.mp atStep).1
    have evaluated : (aggregate steps).evaluated = s + 1 := by
      simp only [same, Tally.stop, Tally.after, List.length_take]
      omega
    refine ⟨flag, outcome, atStep, ?_, evaluated, by rw [same]; rfl, ?_⟩
    · rw [runChain_numbered, evaluated, List.take_range, Nat.min_eq_left inside]
    · rcases ends with ⟨isRequisite, _⟩ | ⟨isSufficient, permits, _⟩
      · simp only at isRequisite
        subst isRequisite
        exact .inl ⟨rfl, by rw [same]; rfl, by rw [same]; rfl⟩
      · simp only at isSufficient permits
        subst isSufficient permits
        exact .inr ⟨rfl, by rw [same]; rfl, by rw [same]; rfl⟩
  · have same := aggregate_of_no_end onward
    have evaluated : (aggregate steps).evaluated = steps.length := by rw [same]; rfl
    refine ⟨?_, evaluated, by rw [same]; rfl, by rw [same]; rfl, ?_⟩
    · rw [runChain_numbered, evaluated, List.take_range, Nat.min_self]
    · rw [same]
      exact Tally.after_decision steps

/-- A required refusal keeps the sufficient step behind it from ending the chain. The requisite step that fails after
both ends it with its error, and the last step is not run. -/
theorem aggregate_follows_flags_past_sufficient :
    let steps :=
      [(.required, .deny), (.sufficient, .permit), (.requisite, .error (.internal "down")), (.optional, .permit)]
    IsLeast {i | EndsAt steps i} 2 ∧ (runChain (numbered steps)).run [] = (aggregate steps, [0, 1, 2]) ∧
      (aggregate steps).decision = .deny ∧ (aggregate steps).decidingError = some (.internal "down") := by
  intro steps
  have first : IsLeast {i | EndsAt steps i} 2 := by
    refine ⟨⟨_, rfl, by decide⟩, ?_⟩
    rintro i ⟨step, atStep, ends⟩
    match i with
    | 0 =>
      cases atStep
      exact absurd ends (by decide)
    | 1 =>
      cases atStep
      exact absurd ends (by decide)
    | i + 2 => exact Nat.le_add_left 2 i
  obtain ⟨flag, outcome, atStep, run, _, _, decided⟩ := (aggregate_follows_flags steps).1 2 first
  cases atStep
  rcases decided with ⟨_, denied, error⟩ | ⟨impossible, _⟩
  · exact ⟨first, run, denied, error⟩
  · cases impossible

end AccessControl
