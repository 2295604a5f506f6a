import AccessControl.Proofs.ChainOrder
import AccessControl.Proofs.ChainVerdict
import Mathlib.Order.Basic

namespace AccessControl

/-- Failing outcomes come first, then abstaining, then permitting. -/
instance : Preorder Outcome := Preorder.lift Outcome.favour

/-- How far a decision speaks for access. -/
def Decision.favour : Decision → Nat
  | deny => 0
  | permit => 1

/-- Refusing comes before permitting. -/
instance : Preorder Decision := Preorder.lift Decision.favour

theorem Decision.le_iff {d d' : Decision} : d ≤ d' ↔ (d = permit → d' = permit) := by
  change d.favour ≤ d'.favour ↔ _
  cases d <;> cases d' <;> simp [favour]

theorem Decision.le_iff_deny {d d' : Decision} : d ≤ d' ↔ (d' = deny → d = deny) := by
  rw [le_iff]
  cases d <;> cases d' <;> simp

theorem ChainDecision.AtMost.orElse_le {d d' : ChainDecision} (atMost : d.AtMost d') (fallback : Decision) :
    d.orElse fallback ≤ d'.orElse fallback := Decision.le_iff.mpr (atMost fallback)

section Extremes

variable {steps : List (ControlFlag × Outcome)}

theorem completedDecision_of_failures (nonempty : steps ≠ []) (unsettled : settling steps = none)
    (failing : ∀ s ∈ steps, s.2.isFailure) : completedDecision steps = .deny := by
  have unbarred : ∀ s ∈ steps, ¬s.1.isMandatory := fun s member mandatory =>
    (settling_eq_none.mp unsettled s member).2 ⟨mandatory, failing s member⟩
  have opinion : ∀ s ∈ steps, s.2 ≠ .abstain ∧ s.2 ≠ .permit := by
    intro s member
    have failed := failing s member
    constructor <;> intro same <;> simp [same] at failed
  unfold completedDecision
  split_ifs with barred mandatory sufficient permitted refused
  · rfl
  · obtain ⟨s, member, isMandatory, _⟩ := mandatory
    exact absurd isMandatory (unbarred s member)
  · rfl
  · obtain ⟨s, member, _, permits⟩ := permitted
    exact absurd permits (opinion s member).2
  · rfl
  · obtain ⟨s, member⟩ := List.exists_mem_of_ne_nil steps nonempty
    cases flag : s.1 with
    | required | requisite => exact absurd (by rw [flag]; rfl) (unbarred s member)
    | sufficient => exact absurd ⟨s, member, flag, (opinion s member).1⟩ sufficient
    | optional => exact absurd ⟨s, member, flag, failing s member⟩ refused

theorem completedDecision_of_permits (nonempty : steps ≠ []) (unsettled : settling steps = none)
    (permitting : ∀ s ∈ steps, s.2 = .permit) : completedDecision steps = .permit := by
  have ungranted : ∀ s ∈ steps, s.1 ≠ .sufficient := fun s member sufficient =>
    (settling_eq_none.mp unsettled s member).1 ⟨sufficient, permitting s member⟩
  have opinion : ∀ s ∈ steps, s.2 ≠ .abstain ∧ ¬s.2.isFailure := by
    intro s member
    rw [permitting s member]
    exact ⟨nofun, nofun⟩
  unfold completedDecision
  split_ifs with barred mandatory sufficient permitted refused
  · obtain ⟨s, member, _, failed⟩ := barred
    exact absurd failed (opinion s member).2
  · rfl
  · obtain ⟨s, member, isSufficient, _⟩ := sufficient
    exact absurd isSufficient (ungranted s member)
  · rfl
  · obtain ⟨s, member, _, failed⟩ := refused
    exact absurd failed (opinion s member).2
  · obtain ⟨s, member⟩ := List.exists_mem_of_ne_nil steps nonempty
    cases flag : s.1 with
    | required | requisite => exact absurd ⟨s, member, by rw [flag]; rfl, (opinion s member).1⟩ mandatory
    | sufficient => exact absurd flag (ungranted s member)
    | optional => exact absurd ⟨s, member, flag, permitting s member⟩ permitted

theorem aggregate_of_failures (nonempty : steps ≠ []) (failing : ∀ s ∈ steps, s.2.isFailure) :
    (aggregate steps).decision = .deny := by
  rw [aggregate_decision]
  cases settled : settling steps with
  | none =>
    rw [settledDecision, settled]
    exact completedDecision_of_failures nonempty settled failing
  | some s =>
    have failed := failing s (List.mem_of_find?_eq_some settled)
    have bars : Bars s := by
      refine (settling_eq_some settled).1.resolve_left fun grants => ?_
      rw [grants.2] at failed
      cases failed
    exact settledDecision_of_bars settled bars

theorem aggregate_of_permits (nonempty : steps ≠ []) (permitting : ∀ s ∈ steps, s.2 = .permit) :
    (aggregate steps).decision = .permit := by
  rw [aggregate_decision]
  cases settled : settling steps with
  | none =>
    rw [settledDecision, settled]
    exact completedDecision_of_permits nonempty settled permitting
  | some s =>
    have permits := permitting s (List.mem_of_find?_eq_some settled)
    have grants : Grants s := by
      refine (settling_eq_some settled).1.resolve_right fun bars => ?_
      have failed := bars.2
      rw [permits] at failed
      cases failed
    exact settledDecision_of_grants settled grants

end Extremes

/-- More favourable outcomes never turn a final permission into a refusal, and less favourable ones never turn a refusal
into a permission, whatever a chain without opinions falls back on. Every chain spans the whole order: it refuses when
all its steps fail and permits when all of them permit. -/
theorem aggregate_monotone :
    (∀ low high, List.Forall₂ (fun s s' : ControlFlag × Outcome => s.1 = s'.1 ∧ s.2 ≤ s'.2) low high →
      ∀ fallback, (aggregate low).decision.orElse fallback ≤ (aggregate high).decision.orElse fallback ∧
        ((aggregate low).decision.orElse fallback = .permit → (aggregate high).decision.orElse fallback = .permit) ∧
        ((aggregate high).decision.orElse fallback = .deny → (aggregate low).decision.orElse fallback = .deny)) ∧
    (∀ steps, steps ≠ [] → (∀ s ∈ steps, s.2.isFailure) → (aggregate steps).decision = .deny) ∧
    (∀ steps, steps ≠ [] → (∀ s ∈ steps, s.2 = .permit) → (aggregate steps).decision = .permit) := by
  refine ⟨fun low high pairs fallback => ?_, fun steps => aggregate_of_failures, fun steps => aggregate_of_permits⟩
  have atMost := (aggregate_atMost pairs).orElse_le fallback
  exact ⟨atMost, Decision.le_iff.mp atMost, Decision.le_iff_deny.mp atMost⟩

/-- A sufficient step that turns from abstaining to failing takes an optional permission away, and no fallback brings it
back. On its own it refuses, and the optional step on its own permits. -/
theorem aggregate_monotone_past_optional :
    let failing := ((.sufficient, .error (.internal "down")) : ControlFlag × Outcome)
    let permitting := ((.optional, .permit) : ControlFlag × Outcome)
    let low := [(.required, .abstain), failing, permitting]
    let high := [(.required, .abstain), (.sufficient, .abstain), permitting]
    List.Forall₂ (fun s s' : ControlFlag × Outcome => s.1 = s'.1 ∧ s.2 ≤ s'.2) low high ∧
      (aggregate low).decision = .deny ∧ (aggregate high).decision = .permit ∧
      (∀ fallback, (aggregate low).decision.orElse fallback ≤ (aggregate high).decision.orElse fallback) ∧
      (aggregate [failing]).decision = .deny ∧ (aggregate [permitting]).decision = .permit := by
  intro failing permitting low high
  have pairs : List.Forall₂ (fun s s' : ControlFlag × Outcome => s.1 = s'.1 ∧ s.2 ≤ s'.2) low high :=
    .cons ⟨rfl, le_refl _⟩ (.cons ⟨rfl, Nat.zero_le _⟩ (.cons ⟨rfl, le_refl _⟩ .nil))
  refine ⟨pairs, rfl, rfl, fun fallback => (aggregate_monotone.1 low high pairs fallback).1, ?_, ?_⟩
  · exact aggregate_monotone.2.1 [failing] nofun (by decide)
  · exact aggregate_monotone.2.2 [permitting] nofun (by decide)

end AccessControl
