import AccessControl.Proofs.ChainVerdict
import Mathlib.Data.List.Induction

namespace AccessControl

section Places

variable {keep : ControlFlag × Outcome → Bool}

/-- A kept step stands behind as many kept steps as there are in front of it. -/
theorem getElem?_filter {steps : List (ControlFlag × Outcome)} {place : Nat} {step : ControlFlag × Outcome}
    (atStep : steps[place]? = some step) (kept : keep step = true) :
    (steps.filter keep)[((steps.take place).filter keep).length]? = some step := by
  obtain ⟨inside, same⟩ := List.getElem?_eq_some_iff.mp atStep
  have split : steps = steps.take place ++ step :: steps.drop (place + 1) := by
    rw [← same, ← List.drop_eq_getElem_cons inside, List.take_append_drop]
  have filtered : steps.filter keep =
      (steps.take place).filter keep ++ step :: (steps.drop (place + 1)).filter keep := by
    conv_lhs => rw [split]
    rw [List.filter_append, List.filter_cons_of_pos kept]
  rw [filtered, List.getElem?_append_right le_rfl, Nat.sub_self, List.getElem?_cons_zero]

/-- A reported failure names the place and the flag of a failing step. -/
theorem mem_failuresOf {steps : List (ControlFlag × Outcome)} {f : StepFailure} (member : f ∈ failuresOf steps) :
    ∃ outcome : Outcome, steps[f.index]? = some (f.flag, outcome) ∧ outcome.isFailure = true := by
  obtain ⟨⟨step, index⟩, listed, reported⟩ := List.mem_filterMap.mp member
  rw [List.mk_mem_zipIdx_iff_getElem?] at listed
  dsimp only at reported
  split_ifs at reported with failed
  cases reported
  exact ⟨step.2, listed, failed⟩

/-- When every failing step is kept, the same failures are reported for the kept steps, at their places there. -/
theorem failuresOf_filter (failing : ∀ s : ControlFlag × Outcome, s.2.isFailure = true → keep s = true)
    (steps : List (ControlFlag × Outcome)) :
    failuresOf (steps.filter keep) =
      (failuresOf steps).map fun f => { f with index := ((steps.take f.index).filter keep).length } := by
  induction steps using List.reverseRecOn with
  | nil => rfl
  | append_singleton seen step ih =>
    have earlier : (failuresOf seen).map
        (fun f => { f with index := (((seen ++ [step]).take f.index).filter keep).length }) =
          failuresOf (seen.filter keep) := by
      rw [ih]
      refine List.map_congr_left fun f member => ?_
      obtain ⟨_, atStep, _⟩ := mem_failuresOf member
      have inside : f.index ≤ seen.length := (List.getElem?_eq_some_iff.mp atStep).1.le
      rw [List.take_append_of_le_length inside]
    rw [failuresOf_append, List.filter_append]
    by_cases failed : step.2.isFailure = true
    · rw [if_pos failed, List.map_append, earlier, List.filter_cons_of_pos (failing step failed), List.filter_nil,
        failuresOf_append, if_pos failed, List.map_singleton, List.take_left]
    · rw [if_neg failed, earlier]
      cases kept : keep step with
      | true => rw [List.filter_cons_of_pos kept, List.filter_nil, failuresOf_append, if_neg failed]
      | false => rw [List.filter_cons_of_neg (by simp [kept]), List.filter_nil, List.append_nil]

end Places

section Abstaining

/-- The place that a step with an opinion has once the steps without one are taken out of its chain. -/
def decisivePlace (steps : List (ControlFlag × Outcome)) (place : Nat) : Nat := (decisive (steps.take place)).length

theorem decisive_of_failure (s : ControlFlag × Outcome) (failed : s.2.isFailure = true) :
    decide (s.2 ≠ .abstain) = true := by
  refine decide_eq_true fun silent => ?_
  rw [silent] at failed
  cases failed

theorem getElem?_decisivePlace {steps : List (ControlFlag × Outcome)} {f : StepFailure}
    (reported : f ∈ (aggregate steps).failures) :
    ∃ outcome, steps[f.index]? = some (f.flag, outcome) ∧
      (decisive steps)[decisivePlace steps f.index]? = some (f.flag, outcome) := by
  rw [aggregate_failures] at reported
  obtain ⟨outcome, atStep, failed⟩ := mem_failuresOf reported
  have atStep' : steps[f.index]? = some (f.flag, outcome) := by
    obtain ⟨inside, same⟩ := List.getElem?_eq_some_iff.mp atStep
    rw [List.getElem_take] at same
    exact List.getElem?_eq_some_iff.mpr ⟨_, same⟩
  exact ⟨outcome, atStep', getElem?_filter atStep' (decisive_of_failure _ failed)⟩

theorem aggregate_decisive_failures (steps : List (ControlFlag × Outcome)) :
    (aggregate (decisive steps)).failures =
      (aggregate steps).failures.map fun f => { f with index := decisivePlace steps f.index } := by
  have run : (decisive steps).take (aggregate (decisive steps)).evaluated =
      decisive (steps.take (aggregate steps).evaluated) := (aggregate_filter idle_of_not_decisive steps).2.2
  have reports : failuresOf (decisive (steps.take (aggregate steps).evaluated)) = _ :=
    failuresOf_filter decisive_of_failure (steps.take (aggregate steps).evaluated)
  rw [aggregate_failures, aggregate_failures steps, run, reports]
  refine List.map_congr_left fun f member => ?_
  obtain ⟨_, atStep, _⟩ := mem_failuresOf member
  have inside := (List.getElem?_eq_some_iff.mp atStep).1
  rw [List.length_take] at inside
  rw [List.take_take, Nat.min_eq_left (by omega)]
  rfl

end Abstaining

section Optional

/-- The steps of a chain that are not optional. -/
def withoutOptional (steps : List (ControlFlag × Outcome)) : List (ControlFlag × Outcome) :=
  steps.filter fun s => s.1 ≠ .optional

/-- What the optional steps of a chain come to when no other step has an opinion. -/
def optionalDecision (steps : List (ControlFlag × Outcome)) : ChainDecision :=
  if ∃ s ∈ steps, s.1 = .optional ∧ s.2 = .permit then .permit
  else if ∃ s ∈ steps, s.1 = .optional ∧ s.2.isFailure then .deny
  else .abstain

theorem idle_of_optional (s : ControlFlag × Outcome) (dropped : decide (s.1 ≠ .optional) = false) : Idle s :=
  .inl (by simpa using dropped)

theorem exists_mem_withoutOptional {steps : List (ControlFlag × Outcome)} {p : ControlFlag × Outcome → Prop}
    (other : ∀ s, p s → s.1 ≠ .optional) : (∃ s ∈ withoutOptional steps, p s) ↔ ∃ s ∈ steps, p s := by
  simp only [withoutOptional, List.mem_filter, decide_eq_true_eq, and_assoc]
  exact exists_congr fun s => and_congr_right fun _ => and_iff_right_of_imp (other s)

theorem not_optional_of_mem {steps : List (ControlFlag × Outcome)} {s : ControlFlag × Outcome}
    (member : s ∈ withoutOptional steps) : s.1 ≠ .optional := of_decide_eq_true (List.mem_filter.mp member).2

theorem completedDecision_withoutOptional (steps : List (ControlFlag × Outcome)) :
    completedDecision steps =
      if completedDecision (withoutOptional steps) = .abstain then optionalDecision steps
      else completedDecision (withoutOptional steps) := by
  have failed : (∃ s ∈ withoutOptional steps, s.1 = .required ∧ s.2.isFailure) ↔
      ∃ s ∈ steps, s.1 = .required ∧ s.2.isFailure :=
    exists_mem_withoutOptional fun s required => by simp [required.1]
  have mandatory : (∃ s ∈ withoutOptional steps, s.1.isMandatory ∧ s.2 ≠ .abstain) ↔
      ∃ s ∈ steps, s.1.isMandatory ∧ s.2 ≠ .abstain :=
    exists_mem_withoutOptional fun s mandatory flag => by simp [flag] at mandatory
  have sufficient : (∃ s ∈ withoutOptional steps, s.1 = .sufficient ∧ s.2 ≠ .abstain) ↔
      ∃ s ∈ steps, s.1 = .sufficient ∧ s.2 ≠ .abstain :=
    exists_mem_withoutOptional fun s sufficient => by simp [sufficient.1]
  have unpermitted : ¬∃ s ∈ withoutOptional steps, s.1 = .optional ∧ s.2 = .permit :=
    fun ⟨s, member, optional, _⟩ => not_optional_of_mem member optional
  have unrefused : ¬∃ s ∈ withoutOptional steps, s.1 = .optional ∧ s.2.isFailure :=
    fun ⟨s, member, optional, _⟩ => not_optional_of_mem member optional
  simp only [completedDecision, failed, mandatory, sufficient, if_neg unpermitted, if_neg unrefused, optionalDecision]
  by_cases barred : ∃ s ∈ steps, s.1 = .required ∧ s.2.isFailure
  · simp only [if_pos barred, reduceCtorEq, if_false]
  by_cases passed : ∃ s ∈ steps, s.1.isMandatory ∧ s.2 ≠ .abstain
  · simp only [if_neg barred, if_pos passed, reduceCtorEq, if_false]
  by_cases insufficient : ∃ s ∈ steps, s.1 = .sufficient ∧ s.2 ≠ .abstain
  · simp only [if_neg barred, if_neg passed, if_pos insufficient, reduceCtorEq, if_false]
  · simp only [if_neg barred, if_neg passed, if_neg insufficient, if_true]

/-- The optional steps decide a chain when the others do not. -/
theorem aggregate_withoutOptional (steps : List (ControlFlag × Outcome)) :
    (aggregate steps).decision =
      if (aggregate (withoutOptional steps)).decision = .abstain then optionalDecision steps
      else (aggregate (withoutOptional steps)).decision := by
  have settled : settling (withoutOptional steps) = settling steps := settling_filter idle_of_optional steps
  simp only [aggregate_decision, settledDecision, settled]
  cases settling steps with
  | none => exact completedDecision_withoutOptional steps
  | some s =>
    by_cases grants : Grants s
    · simp only [if_pos grants, reduceCtorEq, if_false]
    · simp only [if_neg grants, reduceCtorEq, if_false]

theorem optionalDecision_eq_permit {steps : List (ControlFlag × Outcome)} :
    optionalDecision steps = .permit ↔ ∃ s ∈ steps, s.1 = .optional ∧ s.2 = .permit := by
  unfold optionalDecision
  split_ifs with permitted refused
  · exact iff_of_true rfl permitted
  · exact iff_of_false nofun permitted
  · exact iff_of_false nofun permitted

theorem optionalDecision_eq_deny {steps : List (ControlFlag × Outcome)} :
    optionalDecision steps = .deny ↔
      (∃ s ∈ steps, s.1 = .optional ∧ s.2.isFailure) ∧ ¬∃ s ∈ steps, s.1 = .optional ∧ s.2 = .permit := by
  unfold optionalDecision
  split_ifs with permitted refused
  · exact iff_of_false nofun fun both => both.2 permitted
  · exact iff_of_true rfl ⟨refused, permitted⟩
  · exact iff_of_false nofun fun both => refused both.1

end Optional

/-- Abstaining steps are neutral: without them a chain decides the same, ends early or not as before, and reports the same
error and the same failures, each at the place that its step has then. Optional steps are neutral as long as the others
come to a decision; otherwise they alone decide, where one that permits outweighs those that fail. -/
theorem aggregate_neutral (steps : List (ControlFlag × Outcome)) :
    ((aggregate (decisive steps)).decision = (aggregate steps).decision ∧
      (aggregate (decisive steps)).stoppedEarly = (aggregate steps).stoppedEarly ∧
      (aggregate (decisive steps)).decidingError = (aggregate steps).decidingError ∧
      (aggregate (decisive steps)).failures =
        (aggregate steps).failures.map fun f => { f with index := decisivePlace steps f.index }) ∧
    (∀ f ∈ (aggregate steps).failures, ∃ outcome, steps[f.index]? = some (f.flag, outcome) ∧
      (decisive steps)[decisivePlace steps f.index]? = some (f.flag, outcome)) ∧
    ((aggregate (withoutOptional steps)).decision ≠ .abstain →
      (aggregate (withoutOptional steps)).decision = (aggregate steps).decision ∧
      (aggregate (withoutOptional steps)).stoppedEarly = (aggregate steps).stoppedEarly ∧
      (aggregate (withoutOptional steps)).decidingError = (aggregate steps).decidingError) ∧
    ((aggregate (withoutOptional steps)).decision = .abstain →
      ((aggregate steps).decision = .permit ↔ ∃ s ∈ steps, s.1 = .optional ∧ s.2 = .permit) ∧
      ((aggregate steps).decision = .deny ↔
        (∃ s ∈ steps, s.1 = .optional ∧ s.2.isFailure) ∧ ¬∃ s ∈ steps, s.1 = .optional ∧ s.2 = .permit) ∧
      ((aggregate steps).decision = .abstain ↔ ∀ s ∈ steps, s.2 = .abstain)) := by
  obtain ⟨decision, error⟩ := aggregate_decisive steps
  have early : (aggregate (decisive steps)).stoppedEarly = (aggregate steps).stoppedEarly :=
    (aggregate_filter idle_of_not_decisive steps).1
  obtain ⟨early', error', _⟩ := aggregate_filter idle_of_optional steps
  refine ⟨⟨decision, early, error, aggregate_decisive_failures steps⟩, fun f => getElem?_decisivePlace,
    fun decides => ⟨?_, early', error'⟩, fun silent => ?_⟩
  · rw [aggregate_withoutOptional steps, if_neg decides]
  · have whole : (aggregate steps).decision = optionalDecision steps := by
      rw [aggregate_withoutOptional, if_pos silent]
    refine ⟨?_, ?_, aggregate_decision_eq_abstain⟩
    · rw [whole, optionalDecision_eq_permit]
    · rw [whole, optionalDecision_eq_deny]

/-- An abstaining sufficient step and an optional refusal stand in front of a requisite step that fails with an error, and
both failures move up by one place. Without mandatory and sufficient opinions an optional refusal counts for itself, but not
beside an optional step that permits. -/
theorem aggregate_neutral_moved :
    let steps : List (ControlFlag × Outcome) := [(.sufficient, .abstain), (.optional, .deny), (.required, .permit),
      (.requisite, .error (.internal "down")), (.sufficient, .permit)]
    let divided : List (ControlFlag × Outcome) := [(.required, .abstain), (.optional, .deny), (.optional, .permit)]
    (aggregate (decisive steps)).failures = [⟨0, .optional, none⟩, ⟨2, .requisite, some (.internal "down")⟩] ∧
      (∃ f ∈ (aggregate steps).failures, f.index = 3 ∧ decisivePlace steps f.index = 2) ∧
      (aggregate (withoutOptional steps)).decision ≠ .abstain ∧
      (aggregate (withoutOptional steps)).decidingError = some (.internal "down") ∧
      (aggregate (withoutOptional divided)).decision = .abstain ∧ (aggregate divided).decision = .permit := by
  intro steps divided
  obtain ⟨⟨_, _, _, moved⟩, _, decided, _⟩ := aggregate_neutral steps
  obtain ⟨_, _, _, undecided⟩ := aggregate_neutral divided
  have decides : (aggregate (withoutOptional steps)).decision ≠ .abstain := by decide
  have silent : (aggregate (withoutOptional divided)).decision = .abstain := by decide
  refine ⟨moved, ⟨⟨3, .requisite, some (.internal "down")⟩, by decide, rfl, by decide⟩, decides, (decided decides).2.2,
    silent, (undecided silent).1.mpr ⟨(.optional, .permit), by decide, rfl, rfl⟩⟩

end AccessControl
