import AccessControl.Proofs.ChainRun
import Mathlib.Data.List.Forall2

namespace AccessControl

/-- How far an outcome speaks for access: failing, then abstaining, then permitting. -/
def Outcome.favour : Outcome → Nat
  | deny | error _ => 0
  | abstain => 1
  | permit => 2

@[simp] theorem Outcome.favour_permit : permit.favour = 2 := rfl
@[simp] theorem Outcome.favour_deny : deny.favour = 0 := rfl
@[simp] theorem Outcome.favour_abstain : abstain.favour = 1 := rfl
@[simp] theorem Outcome.favour_error (e : Error) : (error e).favour = 0 := rfl

/-- A decision that permits only where another does, whatever stands in for abstaining. -/
def ChainDecision.AtMost (d d' : ChainDecision) : Prop :=
  ∀ fallback, d.orElse fallback = .permit → d'.orElse fallback = .permit

theorem ChainDecision.AtMost.of_deny {d d' : ChainDecision} (denied : d = .deny) : d.AtMost d' := by
  subst denied
  exact fun _ impossible => nomatch impossible

theorem ChainDecision.AtMost.of_permit {d d' : ChainDecision} (permitted : d' = .permit) : d.AtMost d' := by
  subst permitted
  exact fun _ _ => rfl

/-- Two tallies of the same flags, the first of outcomes that speak less for access. Where only the second shows a step
that refuses, something in it makes up for that step. -/
structure Tally.Below (t u : Tally) : Prop where
  failed : u.mandatoryFailed = true → t.mandatoryFailed = true
  mandatory : t.mandatoryFailed = false → t.mandatoryPresent = true → u.mandatoryPresent = true
  sufficient : u.sufficientPresent = true → t.sufficientPresent = true ∨ u.mandatoryFailed = true
  permitted : t.optionalPermitted = true → u.optionalPermitted = true
  optional : u.optionalPresent = true → t.optionalPresent = true ∨ u.optionalPermitted = true
  present : u.optionalPermitted = true → u.optionalPresent = true

namespace Tally.Below

theorem start : Tally.start.Below Tally.start := ⟨nofun, nofun, nofun, nofun, nofun, nofun⟩

theorem decision {t u : Tally} (below : t.Below u) : t.decision.AtMost u.decision := by
  obtain ⟨failed, mandatory, sufficient, permitted, optional, present⟩ := below
  intro fallback permits
  unfold Tally.decision at permits ⊢
  grind [ChainDecision.orElse]

/-- One step keeps the order. When it ends either chain, the two decisions are in order already. -/
theorem record {t u : Tally} (below : t.Below u) (flag : ControlFlag) {o o' : Outcome} (le : o.favour ≤ o'.favour) :
    match t.record flag o, u.record flag o' with
    | .ok next, .ok next' => next.Below next'
    | .error ended, .error ended' => ended.decision = .deny ∨ ended'.decision = .permit
    | .error ended, .ok _ => ended.decision = .deny
    | .ok _, .error ended' => ended'.decision = .permit := by
  obtain ⟨failed, mandatory, sufficient, permitted, optional, present⟩ := below
  -- Only the six pairs of outcomes in order remain for each flag, and each field of the order is checked for them.
  cases flag with
  | required => cases o <;> cases o' <;> simp_all [Tally.record, note] <;> constructor <;> simp_all
  | requisite => cases o <;> cases o' <;> simp_all [Tally.record, note, stop] <;> constructor <;> simp_all
  | sufficient => cases o <;> cases o' <;> simp_all [Tally.record, note] <;> grind [Tally.Below, stop]
  | optional => cases o <;> cases o' <;> simp_all [Tally.record, note] <;> constructor <;> simp_all

theorem through {t u : Tally} (below : t.Below u) {low high : List (ControlFlag × Outcome)}
    (pairs : List.Forall₂ (fun s s' => s.1 = s'.1 ∧ s.2.favour ≤ s'.2.favour) low high) :
    (t.through low).decision.AtMost (u.through high).decision := by
  induction pairs generalizing t u with
  | nil => exact below.decision
  | @cons s s' low high pair _ ih =>
    obtain ⟨flag, o⟩ := s
    obtain ⟨_, o'⟩ := s'
    obtain ⟨rfl, le⟩ := pair
    have step := below.record flag le
    simp only [Tally.through]
    cases here : t.record flag o with
    | ok next =>
      cases there : u.record flag o' with
      | ok next' =>
        rw [here, there] at step
        exact ih step
      | error ended' =>
        rw [here, there] at step
        exact .of_permit step
    | error ended =>
      cases there : u.record flag o' with
      | ok next' =>
        rw [here, there] at step
        exact .of_deny step
      | error ended' =>
        rw [here, there] at step
        exact step.elim .of_deny .of_permit

end Tally.Below

/-- Outcomes that speak more for access never turn a decision that permits into one that refuses. -/
theorem aggregate_atMost {low high : List (ControlFlag × Outcome)}
    (pairs : List.Forall₂ (fun s s' => s.1 = s'.1 ∧ s.2.favour ≤ s'.2.favour) low high) :
    (aggregate low).decision.AtMost (aggregate high).decision := by
  rw [aggregate_eq_through, aggregate_eq_through]
  exact Tally.Below.start.through pairs

end AccessControl
