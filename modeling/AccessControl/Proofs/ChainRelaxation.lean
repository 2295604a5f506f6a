import AccessControl.Proofs.ChainVerdict
import Mathlib.Data.List.Basic

namespace AccessControl

/-- The flag that counts failures alike but never ends a chain over one. -/
def ControlFlag.relaxed : ControlFlag → ControlFlag
  | requisite => required
  | flag => flag

/-- A chain whose requisite steps are required ones instead. -/
def relaxed (steps : List (ControlFlag × Outcome)) : List (ControlFlag × Outcome) :=
  steps.map fun s => (s.1.relaxed, s.2)

/-- What a failure says apart from the flag of its step. -/
def StepFailure.report (f : StepFailure) : Nat × Option Error := (f.index, f.error)

namespace ControlFlag

@[simp] theorem isMandatory_relaxed (flag : ControlFlag) : flag.relaxed.isMandatory = flag.isMandatory := by
  cases flag <;> rfl

@[simp] theorem relaxed_eq_sufficient {flag : ControlFlag} : flag.relaxed = sufficient ↔ flag = sufficient := by
  cases flag <;> simp [relaxed]

@[simp] theorem relaxed_eq_optional {flag : ControlFlag} : flag.relaxed = optional ↔ flag = optional := by
  cases flag <;> simp [relaxed]

theorem relaxed_ne_requisite (flag : ControlFlag) : flag.relaxed ≠ requisite := by
  cases flag <;> simp [relaxed]

theorem relaxed_eq_required {flag : ControlFlag} : flag.relaxed = required ↔ flag.isMandatory = true := by
  cases flag <;> simp [relaxed]

end ControlFlag

section Decision

theorem grants_relaxed {s : ControlFlag × Outcome} : Grants (s.1.relaxed, s.2) ↔ Grants s := by
  simp only [Grants, ControlFlag.relaxed_eq_sufficient]

theorem bars_relaxed {s : ControlFlag × Outcome} : Bars (s.1.relaxed, s.2) ↔ Bars s := by
  simp only [Bars, ControlFlag.isMandatory_relaxed]

theorem exists_mem_relaxed {steps : List (ControlFlag × Outcome)} {p : ControlFlag × Outcome → Prop} :
    (∃ s ∈ relaxed steps, p s) ↔ ∃ s ∈ steps, p (s.1.relaxed, s.2) := by
  simp only [relaxed, List.mem_map, exists_exists_and_eq_and]

theorem settling_relaxed (steps : List (ControlFlag × Outcome)) :
    settling (relaxed steps) = (settling steps).map fun s => (s.1.relaxed, s.2) := by
  unfold settling relaxed
  rw [List.find?_map]
  congr 2
  funext s
  simp only [Function.comp_apply, grants_relaxed, bars_relaxed]

theorem completedDecision_relaxed {steps : List (ControlFlag × Outcome)} (unbarred : ∀ s ∈ steps, ¬Bars s) :
    completedDecision (relaxed steps) = completedDecision steps := by
  have unfailed : ¬∃ s ∈ steps, s.1 = .required ∧ s.2.isFailure := by
    rintro ⟨s, member, required, failed⟩
    exact unbarred s member (bars_iff.mpr ⟨.inl required, failed⟩)
  have unfailed' : ¬∃ s ∈ relaxed steps, s.1 = .required ∧ s.2.isFailure := by
    rw [exists_mem_relaxed]
    rintro ⟨s, member, required, failed⟩
    exact unbarred s member ⟨ControlFlag.relaxed_eq_required.mp required, failed⟩
  unfold completedDecision
  rw [if_neg unfailed, if_neg unfailed']
  simp only [exists_mem_relaxed, ControlFlag.isMandatory_relaxed, ControlFlag.relaxed_eq_sufficient,
    ControlFlag.relaxed_eq_optional]

theorem settledDecision_relaxed (steps : List (ControlFlag × Outcome)) :
    settledDecision (relaxed steps) = settledDecision steps := by
  unfold settledDecision
  rw [settling_relaxed]
  cases settled : settling steps with
  | none => exact completedDecision_relaxed fun s member => (settling_eq_none.mp settled s member).2
  | some s => simp only [Option.map_some, grants_relaxed]

end Decision

section Evaluated

theorem aggregate_evaluated_le_of_endsAt {steps : List (ControlFlag × Outcome)} {i : Nat} (ends : EndsAt steps i) :
    (aggregate steps).evaluated ≤ i + 1 := by
  obtain ⟨s, first⟩ := exists_first_end ends
  have evaluated := aggregate_evaluated_of_first_end first
  have earliest : s ≤ i := first.2 ends
  omega

/-- A chain is evaluated up to a step that ends it, or else to its end. -/
theorem aggregate_evaluated_cases (steps : List (ControlFlag × Outcome)) :
    (∃ s, EndsAt steps s ∧ (aggregate steps).evaluated = s + 1) ∨ (aggregate steps).evaluated = steps.length := by
  by_cases onward : ∀ i, ¬EndsAt steps i
  · right
    rw [aggregate_of_no_end onward]
    rfl
  · left
    obtain ⟨i, ends⟩ := not_forall_not.mp onward
    obtain ⟨s, first⟩ := exists_first_end ends
    exact ⟨s, first.1, aggregate_evaluated_of_first_end first⟩

theorem EndsAt.of_relaxed {steps : List (ControlFlag × Outcome)} {i : Nat} (ends : EndsAt (relaxed steps) i) :
    EndsAt steps i := by
  obtain ⟨_, atStep, ends⟩ := ends
  rw [relaxed, List.getElem?_map, Option.map_eq_some_iff] at atStep
  obtain ⟨step, atStep, rfl⟩ := atStep
  rcases ends with ⟨requisite, _⟩ | ⟨sufficient, permits, unbarred⟩
  · exact absurd requisite step.1.relaxed_ne_requisite
  · refine ⟨step, atStep, .inr ⟨ControlFlag.relaxed_eq_sufficient.mp sufficient, permits, ?_⟩⟩
    rintro ⟨s, member, required, failed⟩
    refine unbarred ⟨(s.1.relaxed, s.2), ?_, by rw [required]; rfl, failed⟩
    rw [relaxed, ← List.map_take]
    exact List.mem_map_of_mem member

/-- Where no requisite step fails, the step that ends a chain also ends it when relaxed. -/
theorem EndsAt.to_relaxed {steps : List (ControlFlag × Outcome)} {i : Nat} (ends : EndsAt steps i)
    (passing : ∀ s ∈ steps.take (i + 1), s.1 = .requisite → s.2.isFailure = false) :
    EndsAt (relaxed steps) i := by
  obtain ⟨step, atStep, ends⟩ := ends
  have here : step ∈ steps.take (i + 1) := by
    rw [List.take_add_one, atStep]
    exact List.mem_append_right _ (List.mem_singleton_self step)
  refine ⟨(step.1.relaxed, step.2), by rw [relaxed, List.getElem?_map, atStep]; rfl, ?_⟩
  rcases ends with ⟨requisite, failed⟩ | ⟨sufficient, permits, unbarred⟩
  · have unfailed := passing step here requisite
    rw [unfailed] at failed
    cases failed
  · refine .inr ⟨ControlFlag.relaxed_eq_sufficient.mpr sufficient, permits, ?_⟩
    rintro ⟨_, member, required, failed⟩
    rw [relaxed, ← List.map_take] at member
    obtain ⟨s, earlier, rfl⟩ := List.mem_map.mp member
    -- The step in front that bars access when relaxed may have been requisite, and then it would have ended the chain.
    cases flag : s.1 with
    | required => exact unbarred ⟨s, earlier, flag, failed⟩
    | requisite =>
      have unfailed := passing s (List.take_subset_take_left steps (Nat.le_succ i) earlier) flag
      rw [unfailed] at failed
      cases failed
    | sufficient | optional =>
      rw [flag] at required
      cases required

theorem aggregate_evaluated_le_relaxed (steps : List (ControlFlag × Outcome)) :
    (aggregate steps).evaluated ≤ (aggregate (relaxed steps)).evaluated := by
  rcases aggregate_evaluated_cases (relaxed steps) with ⟨s, ends, evaluated⟩ | evaluated
  · rw [evaluated]
    exact aggregate_evaluated_le_of_endsAt ends.of_relaxed
  · rw [evaluated, relaxed, List.length_map]
    exact aggregate_evaluated_le steps

theorem aggregate_evaluated_relaxed {steps : List (ControlFlag × Outcome)}
    (passing : ∀ s ∈ steps.take (aggregate steps).evaluated, s.1 = .requisite → s.2.isFailure = false) :
    (aggregate steps).evaluated = (aggregate (relaxed steps)).evaluated := by
  refine Nat.le_antisymm (aggregate_evaluated_le_relaxed steps) ?_
  rcases aggregate_evaluated_cases steps with ⟨s, ends, evaluated⟩ | evaluated
  · rw [evaluated] at passing ⊢
    exact aggregate_evaluated_le_of_endsAt (ends.to_relaxed passing)
  · have bound := aggregate_evaluated_le (relaxed steps)
    rw [relaxed, List.length_map] at bound
    rw [evaluated]
    exact bound

end Evaluated

section Failures

theorem failuresOf_of_begins {steps more : List (ControlFlag × Outcome)} (begins : steps <+: more) :
    failuresOf steps <+: failuresOf more := by
  obtain ⟨rest, rfl⟩ := begins
  unfold failuresOf
  rw [List.zipIdx_append, List.filterMap_append]
  exact List.prefix_append _ _

theorem failuresOf_relaxed_report (steps : List (ControlFlag × Outcome)) :
    (failuresOf (relaxed steps)).map StepFailure.report = (failuresOf steps).map StepFailure.report := by
  unfold failuresOf relaxed
  rw [List.zipIdx_map, List.filterMap_map, List.map_filterMap, List.map_filterMap]
  congr 1
  funext s
  simp only [Function.comp_apply, Prod.map]
  split <;> rfl

theorem failuresOf_relaxed {steps : List (ControlFlag × Outcome)}
    (passing : ∀ s ∈ steps, s.1 = .requisite → s.2.isFailure = false) :
    failuresOf (relaxed steps) = failuresOf steps := by
  unfold failuresOf relaxed
  rw [List.zipIdx_map, List.filterMap_map]
  refine List.filterMap_congr fun s member => ?_
  have here : s.1 ∈ steps := List.fst_mem_of_mem_zipIdx member
  simp only [Function.comp_apply, Prod.map]
  split
  · rename_i failed
    have other : s.1.1.relaxed = s.1.1 := by
      cases flag : s.1.1 with
      | requisite =>
        have unfailed := passing s.1 here flag
        rw [unfailed] at failed
        cases failed
      | required | sufficient | optional => rfl
    rw [other]
    rfl
  · rfl

end Failures

/-- A requisite step is a required one that does not wait for the end. With required steps in place of the requisite
ones a chain comes to the same decision, it runs at least as far, and it reports what was reported before and perhaps
more. It runs just as far as long as no requisite step fails. -/
theorem aggregate_relaxed (steps : List (ControlFlag × Outcome)) :
    (aggregate steps).decision = (aggregate (relaxed steps)).decision ∧
    (aggregate steps).evaluated ≤ (aggregate (relaxed steps)).evaluated ∧
    (aggregate steps).failures.map StepFailure.report <+:
      (aggregate (relaxed steps)).failures.map StepFailure.report ∧
    ((∀ s ∈ steps.take (aggregate steps).evaluated, s.1 = .requisite → s.2.isFailure = false) →
      (aggregate steps).evaluated = (aggregate (relaxed steps)).evaluated ∧
      (aggregate steps).failures = (aggregate (relaxed steps)).failures) := by
  have further := aggregate_evaluated_le_relaxed steps
  refine ⟨?_, further, ?_, fun passing => ?_⟩
  · rw [aggregate_decision, aggregate_decision, settledDecision_relaxed]
  · rw [aggregate_failures, aggregate_failures (relaxed steps), relaxed, ← List.map_take, ← relaxed,
      failuresOf_relaxed_report]
    exact (failuresOf_of_begins (List.take_prefix_take_left further)).map StepFailure.report
  · have evaluated := aggregate_evaluated_relaxed passing
    refine ⟨evaluated, ?_⟩
    rw [aggregate_failures, aggregate_failures (relaxed steps), ← evaluated, relaxed, ← List.map_take, ← relaxed,
      failuresOf_relaxed passing]

/-- Neither chain is ended by the failing required step or by the permitting sufficient one behind it, and both
report the same two failures. -/
theorem aggregate_relaxed_passing :
    let steps := [(.requisite, .permit), (.required, .error (.internal "down")), (.sufficient, .permit),
      (.optional, .deny)]
    (∀ s ∈ steps.take (aggregate steps).evaluated, s.1 = .requisite → s.2.isFailure = false) ∧
      (aggregate (relaxed steps)).evaluated = 4 ∧
      (aggregate (relaxed steps)).failures =
        [⟨1, .required, some (.internal "down")⟩, ⟨3, .optional, none⟩] := by
  intro steps
  have passing : ∀ s ∈ steps.take (aggregate steps).evaluated, s.1 = .requisite → s.2.isFailure = false := by decide
  obtain ⟨evaluated, failures⟩ := (aggregate_relaxed steps).2.2.2 passing
  exact ⟨passing, evaluated.symm, failures.symm⟩

end AccessControl
