import AccessControl.Proofs.ChainVerdict

namespace AccessControl

/-- No step of a chain ends it, and none of its required steps fails. -/
def Undisturbed (steps : List (ControlFlag × Outcome)) : Prop :=
  (∀ i, ¬EndsAt steps i) ∧ ¬∃ s ∈ steps, s.1 = .required ∧ s.2.isFailure

/-- One step grants access and the other bars it. -/
def Contend (a b : ControlFlag × Outcome) : Prop := Grants a ∧ Bars b ∨ Bars a ∧ Grants b

/-- A chain is undisturbed exactly as long as none of its steps settles it. -/
theorem undisturbed_iff {steps : List (ControlFlag × Outcome)} : Undisturbed steps ↔ settling steps = none := by
  constructor
  · rintro ⟨onward, unfailed⟩
    by_contra disturbed
    obtain ⟨s, settled⟩ := Option.ne_none_iff_exists'.mp disturbed
    obtain ⟨settles, seen, rest, rfl, unsettled⟩ := settling_eq_some settled
    have atStep : (seen ++ s :: rest)[seen.length]? = some s := by simp
    have earlier : (seen ++ s :: rest).take seen.length = seen := List.take_left
    have passes : ¬EndsAfter seen s := by
      intro ends
      refine onward seen.length ⟨s, atStep, ?_⟩
      rwa [earlier]
    rcases settles with grants | bars
    · exact passes (.of_grants unsettled grants)
    · obtain ⟨required | requisite, failed⟩ := bars_iff.mp bars
      · exact unfailed ⟨s, List.mem_append_right _ List.mem_cons_self, required, failed⟩
      · exact passes (.inl ⟨requisite, failed⟩)
  · intro unsettled
    have none := settling_eq_none.mp unsettled
    constructor
    · rintro i ⟨s, atStep, ends⟩
      have member := List.mem_of_getElem? atStep
      rcases ends.settles with grants | bars
      · exact (none s member).1 grants
      · exact (none s member).2 bars
    · rintro ⟨s, member, required, failed⟩
      exact (none s member).2 (bars_iff.mpr ⟨.inl required, failed⟩)

theorem completedDecision_perm {steps others : List (ControlFlag × Outcome)} (perm : steps.Perm others) :
    completedDecision steps = completedDecision others :=
  completedDecision_congr fun _ _ => exists_congr fun _ => and_congr_left fun _ => perm.mem_iff

/-- Chains settled by the same step, or by none and of the same steps, come to the same decision. -/
theorem settledDecision_congr {steps others : List (ControlFlag × Outcome)} (settled : settling steps = settling others)
    (perm : steps.Perm others) : settledDecision steps = settledDecision others := by
  rw [settledDecision, settledDecision, settled, completedDecision_perm perm]

section Exchange

variable (seen rest : List (ControlFlag × Outcome)) {a b : ControlFlag × Outcome}

theorem perm_exchange : (seen ++ a :: b :: rest).Perm (seen ++ b :: a :: rest) :=
  (List.Perm.swap b a rest).append_left seen

theorem settledDecision_exchange_of_disturbed {s : ControlFlag × Outcome} (settled : settling seen = some s) :
    settledDecision (seen ++ a :: b :: rest) = settledDecision (seen ++ b :: a :: rest) := by
  refine settledDecision_congr ?_ (perm_exchange seen rest)
  rw [settling_append_of_some settled, settling_append_of_some settled]

theorem settling_of_first {seen : List (ControlFlag × Outcome)} (unsettled : settling seen = none)
    (settles : Grants a ∨ Bars a) : settling (seen ++ a :: rest) = some a := by
  rw [settling_append unsettled, settling_cons settles]

theorem settledDecision_of_contend {seen : List (ControlFlag × Outcome)} (unsettled : settling seen = none)
    (grants : Grants a) (bars : Bars b) :
    settledDecision (seen ++ a :: b :: rest) = .permit ∧ settledDecision (seen ++ b :: a :: rest) = .deny :=
  ⟨settledDecision_of_grants (settling_of_first (b :: rest) unsettled (.inl grants)) grants,
    settledDecision_of_bars (settling_of_first (a :: rest) unsettled (.inr bars)) bars⟩

theorem settledDecision_exchange_of_one {seen : List (ControlFlag × Outcome)} (unsettled : settling seen = none)
    (passes : ¬(Grants b ∨ Bars b)) :
    settledDecision (seen ++ a :: b :: rest) = settledDecision (seen ++ b :: a :: rest) := by
  refine settledDecision_congr ?_ (perm_exchange seen rest)
  rw [settling_append unsettled, settling_append unsettled, settling_cons_of_neither passes]
  by_cases settles : Grants a ∨ Bars a
  · rw [settling_cons settles, settling_cons settles]
  · rw [settling_cons_of_neither settles, settling_cons_of_neither settles, settling_cons_of_neither passes]

theorem settledDecision_exchange (agree : ¬Contend a b) :
    settledDecision (seen ++ a :: b :: rest) = settledDecision (seen ++ b :: a :: rest) := by
  cases settled : settling seen with
  | some s => exact settledDecision_exchange_of_disturbed seen rest settled
  | none =>
    by_cases first : Grants a ∨ Bars a
    · by_cases second : Grants b ∨ Bars b
      · have atA := settling_of_first (b :: rest) settled first
        have atB := settling_of_first (a :: rest) settled second
        rcases first with grants | bars
        · rcases second with grants' | bars'
          · rw [settledDecision_of_grants atA grants, settledDecision_of_grants atB grants']
          · exact absurd (.inl ⟨grants, bars'⟩) agree
        · rcases second with grants' | bars'
          · exact absurd (.inr ⟨bars, grants'⟩) agree
          · rw [settledDecision_of_bars atA bars, settledDecision_of_bars atB bars']
      · exact settledDecision_exchange_of_one rest settled second
    · exact (settledDecision_exchange_of_one rest settled first).symm

end Exchange

/-- Where no step grants access, a single barring step is enough to refuse it. -/
theorem settledDecision_of_no_grants {steps : List (ControlFlag × Outcome)} (ungranted : ∀ s ∈ steps, ¬Grants s) :
    settledDecision steps = if ∃ s ∈ steps, Bars s then .deny else completedDecision steps := by
  cases settled : settling steps with
  | none =>
    have unbarred : ¬∃ s ∈ steps, Bars s := fun ⟨s, member, bars⟩ => (settling_eq_none.mp settled s member).2 bars
    rw [settledDecision, settled, if_neg unbarred]
  | some s =>
    have member : s ∈ steps := List.mem_of_find?_eq_some settled
    have bars : Bars s := (settling_eq_some settled).1.resolve_left (ungranted s member)
    rw [settledDecision_of_bars settled bars, if_pos ⟨s, member, bars⟩]

theorem settledDecision_perm {steps others : List (ControlFlag × Outcome)} (perm : steps.Perm others)
    (ungranted : ∀ s ∈ steps, ¬Grants s) : settledDecision steps = settledDecision others := by
  have ungranted' : ∀ s ∈ others, ¬Grants s := fun s member => ungranted s (perm.mem_iff.mpr member)
  rw [settledDecision_of_no_grants ungranted, settledDecision_of_no_grants ungranted', completedDecision_perm perm]
  simp only [perm.mem_iff]

/-- The order of two neighbouring steps matters exactly when one grants access, the other bars it and nothing before
them has ended the chain or failed as required. Then the first of the two decides. Chains without sufficient steps may
be put in any order. -/
theorem aggregate_exchange :
    (∀ seen rest a b, (aggregate (seen ++ a :: b :: rest)).decision ≠ (aggregate (seen ++ b :: a :: rest)).decision ↔
      Contend a b ∧ Undisturbed seen) ∧
    (∀ seen rest a b, Grants a → Bars b → Undisturbed seen →
      (aggregate (seen ++ a :: b :: rest)).decision = .permit ∧
        (aggregate (seen ++ b :: a :: rest)).decision = .deny) ∧
    (∀ steps others, steps.Perm others → (∀ s ∈ steps, s.1 ≠ .sufficient) →
      (aggregate steps).decision = (aggregate others).decision) := by
  simp only [aggregate_decision, undisturbed_iff]
  refine ⟨fun seen rest a b => ⟨fun differ => ?_, ?_⟩, fun seen rest a b grants bars unsettled => ?_, ?_⟩
  · refine ⟨?_, ?_⟩
    · by_contra agree
      exact differ (settledDecision_exchange seen rest agree)
    · by_contra disturbed
      obtain ⟨s, settled⟩ := Option.ne_none_iff_exists'.mp disturbed
      exact differ (settledDecision_exchange_of_disturbed seen rest settled)
  · rintro ⟨⟨grants, bars⟩ | ⟨bars, grants⟩, unsettled⟩
    · obtain ⟨permits, denies⟩ := settledDecision_of_contend rest unsettled grants bars
      rw [permits, denies]
      exact nofun
    · obtain ⟨permits, denies⟩ := settledDecision_of_contend rest unsettled grants bars
      rw [permits, denies]
      exact nofun
  · exact settledDecision_of_contend rest unsettled grants bars
  · intro steps others perm unsufficient
    exact settledDecision_perm perm fun s member grants => unsufficient s member grants.1

/-- Behind an optional refusal, a permitting sufficient step and a requisite step that fails with an error decide by
their order. A required failure before them takes that effect away, and so does an optional flag on the permitting
step, which may then stand anywhere. -/
theorem aggregate_exchange_of_requisite :
    let grant := ((.sufficient, .permit) : ControlFlag × Outcome)
    let bar := ((.requisite, .error (.internal "down")) : ControlFlag × Outcome)
    (aggregate [(.optional, .deny), grant, bar]).decision = .permit ∧
      (aggregate [(.optional, .deny), bar, grant]).decision = .deny ∧
      (aggregate [(.required, .deny), grant, bar]).decision = (aggregate [(.required, .deny), bar, grant]).decision ∧
      (aggregate [(.optional, .permit), (.optional, .deny), bar]).decision =
        (aggregate [bar, (.optional, .permit), (.optional, .deny)]).decision := by
  intro grant bar
  have grants : Grants grant := by decide
  have bars : Bars bar := by decide
  have undisturbed : Undisturbed [(.optional, .deny)] := undisturbed_iff.mpr (by decide)
  have disturbed : ¬Undisturbed [(.required, .deny)] := by
    rw [undisturbed_iff]
    decide
  have perm : [(.optional, .permit), (.optional, .deny), bar].Perm [bar, (.optional, .permit), (.optional, .deny)] := by
    decide
  obtain ⟨permits, denies⟩ := aggregate_exchange.2.1 [(.optional, .deny)] [] grant bar grants bars undisturbed
  refine ⟨permits, denies, ?_, aggregate_exchange.2.2 _ _ perm (by decide)⟩
  by_contra differ
  exact disturbed ((aggregate_exchange.1 [(.required, .deny)] [] grant bar).mp differ).2

end AccessControl
