import AccessControl.Proofs.ChainSpecification

namespace AccessControl

/-- A sufficient step that permits. -/
def Grants (step : ControlFlag × Outcome) : Prop := step.1 = .sufficient ∧ step.2 = .permit

/-- A required or requisite step that fails. -/
def Bars (step : ControlFlag × Outcome) : Prop := step.1.isMandatory ∧ step.2.isFailure

instance : DecidablePred Grants := fun _ => inferInstanceAs (Decidable (_ ∧ _))
instance : DecidablePred Bars := fun _ => inferInstanceAs (Decidable (_ ∧ _))

/-- The first step of a chain that grants access or bars it. Nothing behind it can change the decision. -/
def settling (steps : List (ControlFlag × Outcome)) : Option (ControlFlag × Outcome) :=
  steps.find? fun s => Grants s ∨ Bars s

/-- The decision read off the step that settles a chain. Without one it is the decision that the flags prescribe. -/
def settledDecision (steps : List (ControlFlag × Outcome)) : ChainDecision :=
  match settling steps with
  | some s => if Grants s then .permit else .deny
  | none => completedDecision steps

theorem bars_iff {step : ControlFlag × Outcome} :
    Bars step ↔ (step.1 = .required ∨ step.1 = .requisite) ∧ step.2.isFailure := by
  obtain ⟨flag, outcome⟩ := step
  cases flag <;> simp [Bars]

theorem Bars.not_grants {step : ControlFlag × Outcome} (bars : Bars step) : ¬Grants step := by
  rintro ⟨sufficient, _⟩
  have mandatory := bars.1
  rw [sufficient] at mandatory
  cases mandatory

theorem settling_eq_none {steps : List (ControlFlag × Outcome)} :
    settling steps = none ↔ ∀ s ∈ steps, ¬Grants s ∧ ¬Bars s := by
  simp only [settling, List.find?_eq_none, decide_eq_true_eq, not_or]

theorem settling_eq_some {steps : List (ControlFlag × Outcome)} {s : ControlFlag × Outcome}
    (settled : settling steps = some s) :
    (Grants s ∨ Bars s) ∧ ∃ seen rest, steps = seen ++ s :: rest ∧ settling seen = none := by
  obtain ⟨settles, seen, rest, split, earlier⟩ := List.find?_eq_some_iff_append.mp settled
  refine ⟨of_decide_eq_true settles, seen, rest, split, ?_⟩
  rw [settling, List.find?_eq_none]
  intro other member
  simpa using earlier other member

theorem settling_append {seen : List (ControlFlag × Outcome)} (unsettled : settling seen = none)
    (rest : List (ControlFlag × Outcome)) : settling (seen ++ rest) = settling rest := by
  unfold settling at unsettled ⊢
  rw [List.find?_append, unsettled, Option.none_or]

theorem settling_append_of_some {seen : List (ControlFlag × Outcome)} {s : ControlFlag × Outcome}
    (settled : settling seen = some s) (rest : List (ControlFlag × Outcome)) : settling (seen ++ rest) = some s := by
  unfold settling at settled ⊢
  rw [List.find?_append, settled, Option.some_or]

theorem settling_cons {step : ControlFlag × Outcome} (settles : Grants step ∨ Bars step)
    (rest : List (ControlFlag × Outcome)) : settling (step :: rest) = some step :=
  List.find?_cons_of_pos (decide_eq_true settles)

theorem settling_cons_of_neither {step : ControlFlag × Outcome} (unsettled : ¬(Grants step ∨ Bars step))
    (rest : List (ControlFlag × Outcome)) : settling (step :: rest) = settling rest :=
  List.find?_cons_of_neg (by simpa using unsettled)

theorem settledDecision_of_grants {steps : List (ControlFlag × Outcome)} {s : ControlFlag × Outcome}
    (settled : settling steps = some s) (grants : Grants s) : settledDecision steps = .permit := by
  rw [settledDecision, settled]
  exact if_pos grants

theorem settledDecision_of_bars {steps : List (ControlFlag × Outcome)} {s : ControlFlag × Outcome}
    (settled : settling steps = some s) (bars : Bars s) : settledDecision steps = .deny := by
  rw [settledDecision, settled]
  exact if_neg bars.not_grants

theorem EndsAfter.settles {seen : List (ControlFlag × Outcome)} {step : ControlFlag × Outcome}
    (ends : EndsAfter seen step) : Grants step ∨ Bars step := by
  rcases ends with ⟨requisite, failed⟩ | ⟨sufficient, permits, _⟩
  · exact .inr (bars_iff.mpr ⟨.inr requisite, failed⟩)
  · exact .inl ⟨sufficient, permits⟩

theorem EndsAfter.of_grants {seen : List (ControlFlag × Outcome)} (unsettled : settling seen = none)
    {step : ControlFlag × Outcome} (grants : Grants step) : EndsAfter seen step := by
  refine .inr ⟨grants.1, grants.2, ?_⟩
  rintro ⟨s, member, required, failed⟩
  exact (settling_eq_none.mp unsettled s member).2 (bars_iff.mpr ⟨.inl required, failed⟩)

namespace Tally

variable {seen : List (ControlFlag × Outcome)} {step : ControlFlag × Outcome}

theorem through_of_passing (onward : ¬EndsAfter seen step) (rest : List (ControlFlag × Outcome)) :
    (after seen).through (step :: rest) = (after (seen ++ [step])).through rest := by
  rw [through, record_after onward]

theorem through_of_ends (ends : EndsAfter seen step) (rest : List (ControlFlag × Outcome)) :
    (after seen).through (step :: rest) =
      (after (seen ++ [step])).stop (if step.1 = .requisite then .deny else .permit) step.2.error? := by
  rw [through, record_after_of_ends ends]

theorem decision_of_refusal (refuses : step.1 = .requisite ∧ step.2.isFailure)
    (rest : List (ControlFlag × Outcome)) : ((after seen).through (step :: rest)).decision = .deny := by
  rw [through_of_ends (.inl refuses), if_pos refuses.1]
  rfl

theorem decision_of_grant (unsettled : settling seen = none) (grants : Grants step)
    (rest : List (ControlFlag × Outcome)) : ((after seen).through (step :: rest)).decision = .permit := by
  have other : ¬step.1 = .requisite := by
    rw [grants.1]
    exact nofun
  rw [through_of_ends (.of_grants unsettled grants), if_neg other]
  rfl

/-- Behind a failed required step a chain is refused, whether or not a failing requisite step still ends it. -/
theorem decision_of_barred (barred : ∃ s ∈ seen, s.1 = .required ∧ s.2.isFailure)
    (rest : List (ControlFlag × Outcome)) : ((after seen).through rest).decision = .deny := by
  induction rest generalizing seen with
  | nil => rw [through, finish, after_decision, completedDecision, if_pos barred]
  | cons step rest ih =>
    by_cases refuses : step.1 = .requisite ∧ step.2.isFailure
    · exact decision_of_refusal refuses rest
    · have onward : ¬EndsAfter seen step := by
        rintro (requisite | ⟨_, _, unbarred⟩)
        · exact refuses requisite
        · exact unbarred barred
      have still : ∃ s ∈ seen ++ [step], s.1 = .required ∧ s.2.isFailure :=
        exists_mem_append_singleton.mpr (.inl barred)
      rw [through_of_passing onward]
      exact ih still

/-- A step that bars access refuses its chain, at once or at the end. -/
theorem decision_of_bars (bars : Bars step) (rest : List (ControlFlag × Outcome)) :
    ((after seen).through (step :: rest)).decision = .deny := by
  obtain ⟨required | requisite, failed⟩ := bars_iff.mp bars
  · have onward : ¬EndsAfter seen step := by
      rintro (⟨requisite, _⟩ | ⟨sufficient, permits, _⟩)
      · rw [required] at requisite
        cases requisite
      · exact bars.not_grants ⟨sufficient, permits⟩
    have barred : ∃ s ∈ seen ++ [step], s.1 = .required ∧ s.2.isFailure :=
      exists_mem_append_singleton.mpr (.inr ⟨required, failed⟩)
    rw [through_of_passing onward]
    exact decision_of_barred barred rest
  · exact decision_of_refusal ⟨requisite, failed⟩ rest

/-- As long as nothing has settled the chain, the rest of it comes to what is read off all its steps together. -/
theorem decision_of_unsettled (unsettled : settling seen = none) (rest : List (ControlFlag × Outcome)) :
    ((after seen).through rest).decision = settledDecision (seen ++ rest) := by
  -- Nothing read so far has settled the chain. The first step that does leaves the induction, since what the other
  -- steps can still change is known by then.
  induction rest generalizing seen with
  | nil =>
    simp only [List.append_nil, settledDecision, unsettled]
    exact after_decision seen
  | cons step rest ih =>
    by_cases settles : Grants step ∨ Bars step
    · have first : settling (seen ++ step :: rest) = some step := by
        rw [settling_append unsettled, settling_cons settles]
      rcases settles with grants | bars
      · rw [settledDecision_of_grants first grants]
        exact decision_of_grant unsettled grants rest
      · rw [settledDecision_of_bars first bars]
        exact decision_of_bars bars rest
    · have still : settling (seen ++ [step]) = none := by
        rw [settling_append unsettled, settling_cons_of_neither settles]
        rfl
      rw [through_of_passing fun ends => settles ends.settles, ih still, List.append_assoc, List.singleton_append]

end Tally

/-- The first step that grants or bars access decides its chain. -/
theorem aggregate_decision (steps : List (ControlFlag × Outcome)) :
    (aggregate steps).decision = settledDecision steps := by
  rw [aggregate_eq_through, ← Tally.after_nil]
  exact Tally.decision_of_unsettled (rfl : settling [] = none) steps

/-- The prescribed decision depends only on which kinds of steps with an opinion occur. -/
theorem completedDecision_congr {steps others : List (ControlFlag × Outcome)}
    (alike : ∀ p : ControlFlag × Outcome → Prop, (∀ s, p s → s.2 ≠ .abstain) →
      ((∃ s ∈ steps, p s) ↔ ∃ s ∈ others, p s)) : completedDecision steps = completedDecision others := by
  have failing {o : Outcome} (failed : o.isFailure) : o ≠ .abstain := by
    rintro rfl
    cases failed
  have permitting {o : Outcome} (permits : o = .permit) : o ≠ .abstain := by
    rintro rfl
    cases permits
  simp only [completedDecision,
    alike (fun s => s.1 = .required ∧ s.2.isFailure) fun _ h => failing h.2,
    alike (fun s => s.1.isMandatory ∧ s.2 ≠ .abstain) fun _ h => h.2,
    alike (fun s => s.1 = .sufficient ∧ s.2 ≠ .abstain) fun _ h => h.2,
    alike (fun s => s.1 = .optional ∧ s.2 = .permit) fun _ h => permitting h.2,
    alike (fun s => s.1 = .optional ∧ s.2.isFailure) fun _ h => failing h.2]

/-- An optional step, or one whose module has no opinion. -/
def Idle (step : ControlFlag × Outcome) : Prop := step.1 = .optional ∨ step.2 = .abstain

/-- Idle steps neither grant access nor bar it. -/
theorem Idle.not_settles {step : ControlFlag × Outcome} (idle : Idle step) : ¬(Grants step ∨ Bars step) := by
  obtain ⟨flag, outcome⟩ := step
  rcases idle with rfl | rfl
  · simp [Grants, Bars]
  · simp [Grants, Bars]

section Idle

-- The chains compared here differ in some of the idle steps: those that are not kept.
variable {keep : ControlFlag × Outcome → Bool} (idle : ∀ s, keep s = false → Idle s)

include idle

theorem kept_of_settles {step : ControlFlag × Outcome} (settles : Grants step ∨ Bars step) : keep step = true := by
  cases kept : keep step with
  | true => rfl
  | false => exact absurd settles (idle step kept).not_settles

theorem settling_filter (steps : List (ControlFlag × Outcome)) : settling (steps.filter keep) = settling steps := by
  unfold settling
  rw [List.find?_filter]
  congr 1
  funext s
  rw [Bool.eq_iff_iff]
  simp only [decide_eq_true_eq]
  exact and_iff_right_of_imp (kept_of_settles idle)

theorem endsAfter_filter {seen : List (ControlFlag × Outcome)} {step : ControlFlag × Outcome} :
    EndsAfter (seen.filter keep) step ↔ EndsAfter seen step := by
  have barred : (∃ s ∈ seen.filter keep, s.1 = .required ∧ s.2.isFailure) ↔
      ∃ s ∈ seen, s.1 = .required ∧ s.2.isFailure := by
    simp only [List.mem_filter, and_assoc]
    refine exists_congr fun s => and_congr_right fun _ => and_iff_right_of_imp ?_
    rintro ⟨required, failed⟩
    exact kept_of_settles idle (.inr (bars_iff.mpr ⟨.inl required, failed⟩))
  rw [EndsAfter, EndsAfter, barred]

/-- Without some of its idle steps, the rest of a chain ends where it did, with the same error. -/
theorem Tally.through_filter (seen rest : List (ControlFlag × Outcome)) :
    let whole := (after seen).through rest
    let short := (after (seen.filter keep)).through (rest.filter keep)
    short.stoppedEarly = whole.stoppedEarly ∧ short.decidingError = whole.decidingError ∧
      ((seen ++ rest).filter keep).take short.evaluated = ((seen ++ rest).take whole.evaluated).filter keep := by
  induction rest generalizing seen with
  | nil =>
    intro whole short
    have all : (seen.take seen.length).filter keep = (seen.filter keep).take (seen.filter keep).length := by
      rw [List.take_length, List.take_length]
    rw [List.append_nil]
    exact ⟨rfl, rfl, all.symm⟩
  | cons step rest ih =>
    have later := ih (seen ++ [step])
    rw [← List.append_cons] at later
    by_cases ends : EndsAfter seen step
    · have kept : keep step = true := kept_of_settles idle ends.settles
      rw [List.filter_cons_of_pos kept, through_of_ends ends, through_of_ends ((endsAfter_filter idle).mpr ends)]
      refine ⟨rfl, rfl, ?_⟩
      have here : (seen ++ [step]).filter keep = seen.filter keep ++ [step] := by
        rw [List.filter_append, List.filter_cons_of_pos kept, List.filter_nil]
      simp only [stop, after]
      rw [List.append_cons seen, List.filter_append, here, List.take_left, List.take_left, here]
    · rw [through_of_passing ends]
      cases kept : keep step with
      | true =>
        rw [List.filter_cons_of_pos kept, through_of_passing fun ends' => ends ((endsAfter_filter idle).mp ends')]
        rwa [List.filter_append, List.filter_cons_of_pos kept, List.filter_nil] at later
      | false =>
        rw [List.filter_cons_of_neg (by simp [kept])]
        rwa [List.filter_append, List.filter_cons_of_neg (by simp [kept]), List.filter_nil, List.append_nil] at later

/-- Without some of its idle steps, a chain is run up to the same step, and ends early or with an error if it did so
before. -/
theorem aggregate_filter (steps : List (ControlFlag × Outcome)) :
    (aggregate (steps.filter keep)).stoppedEarly = (aggregate steps).stoppedEarly ∧
      (aggregate (steps.filter keep)).decidingError = (aggregate steps).decidingError ∧
      (steps.filter keep).take (aggregate (steps.filter keep)).evaluated =
        (steps.take (aggregate steps).evaluated).filter keep := by
  rw [aggregate_eq_through, aggregate_eq_through, ← Tally.after_nil]
  exact Tally.through_filter idle [] steps

end Idle

/-- The steps of a chain whose modules have an opinion. -/
def decisive (steps : List (ControlFlag × Outcome)) : List (ControlFlag × Outcome) :=
  steps.filter fun s => s.2 ≠ .abstain

theorem idle_of_not_decisive (s : ControlFlag × Outcome) (dropped : decide (s.2 ≠ .abstain) = false) : Idle s :=
  .inr (by simpa using dropped)

theorem completedDecision_decisive (steps : List (ControlFlag × Outcome)) :
    completedDecision (decisive steps) = completedDecision steps := by
  refine completedDecision_congr fun p opinion => ⟨?_, ?_⟩
  · rintro ⟨s, member, holds⟩
    exact ⟨s, (List.mem_filter.mp member).1, holds⟩
  · rintro ⟨s, member, holds⟩
    exact ⟨s, List.mem_filter.mpr ⟨member, decide_eq_true (opinion s holds)⟩, holds⟩

/-- Abstaining steps leave no trace in the decision of a chain or in its error, whatever their flags and places are. -/
theorem aggregate_decisive (steps : List (ControlFlag × Outcome)) :
    (aggregate (decisive steps)).decision = (aggregate steps).decision ∧
      (aggregate (decisive steps)).decidingError = (aggregate steps).decidingError := by
  have settled : settling (decisive steps) = settling steps := settling_filter idle_of_not_decisive steps
  refine ⟨?_, (aggregate_filter idle_of_not_decisive steps).2.1⟩
  rw [aggregate_decision, aggregate_decision, settledDecision, settledDecision, settled, completedDecision_decisive]

/-- Once some step has an opinion, the flags prescribe a decision. -/
theorem completedDecision_ne_abstain {steps : List (ControlFlag × Outcome)} {s : ControlFlag × Outcome}
    (member : s ∈ steps) (opinion : s.2 ≠ .abstain) : completedDecision steps ≠ .abstain := by
  unfold completedDecision
  split_ifs with failed mandatory sufficient permitted refused
  · exact nofun
  · exact nofun
  · exact nofun
  · exact nofun
  · exact nofun
  · -- No kind of step is left that this one could be.
    exfalso
    obtain ⟨flag, outcome⟩ := s
    cases flag with
    | required => exact mandatory ⟨_, member, rfl, opinion⟩
    | requisite => exact mandatory ⟨_, member, rfl, opinion⟩
    | sufficient => exact sufficient ⟨_, member, rfl, opinion⟩
    | optional =>
      cases outcome with
      | permit => exact permitted ⟨_, member, rfl, rfl⟩
      | deny => exact refused ⟨_, member, rfl, rfl⟩
      | error e => exact refused ⟨_, member, rfl, rfl⟩
      | abstain => exact opinion rfl

/-- A chain abstains when all its steps do, and only then. -/
theorem aggregate_decision_eq_abstain {steps : List (ControlFlag × Outcome)} :
    (aggregate steps).decision = .abstain ↔ ∀ s ∈ steps, s.2 = .abstain := by
  constructor
  · intro abstains s member
    by_contra opinion
    rw [aggregate_decision, settledDecision] at abstains
    cases settled : settling steps with
    | none =>
      rw [settled] at abstains
      exact completedDecision_ne_abstain member opinion abstains
    | some first =>
      rw [settled] at abstains
      by_cases grants : Grants first <;> simp [grants] at abstains
  · intro silent
    have nothing : decisive steps = [] := by
      refine List.filter_eq_nil_iff.mpr fun s member => ?_
      simp [silent s member]
    rw [← (aggregate_decisive steps).1, nothing]
    rfl

end AccessControl
