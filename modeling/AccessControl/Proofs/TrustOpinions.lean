import AccessControl.Proofs.ChainVerdict
import AccessControl.Proofs.TrustRun

namespace AccessControl

namespace TrustModule

/-- The module fails on the subject or answers that it has no opinion. -/
def isSilent (m : TrustModule) (subject : Subject) : Bool :=
  match m.judge subject with
  | .ok .trusted | .ok .distrusted => false
  | .ok .notApplicable | .error _ => true

theorem isSilent_iff {m : TrustModule} {subject : Subject} :
    m.isSilent subject = true ↔ m.judge subject = .ok .notApplicable ∨ ∃ e, m.judge subject = .error e := by
  unfold isSilent
  cases answer : m.judge subject with
  | error e => simp
  | ok decision => cases decision <;> simp

/-- The modules that abstain in a chain are exactly those that fail or have no opinion. -/
theorem outcome_eq_abstain {m : TrustModule} {subject : Subject} :
    m.outcome subject = .abstain ↔ m.isSilent subject = true := by
  unfold outcome isSilent
  cases m.judge subject with
  | error e => simp
  | ok decision => cases decision <;> simp [TrustDecision.toOutcome]

/-- The second module answers like the first, unless the first one fails: then it fails in some way or other, or
has no opinion. -/
inductive StandsFor (subject : Subject) (m m' : TrustModule) : Prop
  | same : m.judge subject = m'.judge subject → StandsFor subject m m'
  | silenced (e : Error) : m.judge subject = .error e → m'.judge subject = .ok .notApplicable → StandsFor subject m m'
  | failed (e e' : Error) : m.judge subject = .error e → m'.judge subject = .error e' → StandsFor subject m m'

theorem StandsFor.outcome_eq {subject : Subject} {m m' : TrustModule} (stands : StandsFor subject m m') :
    m.outcome subject = m'.outcome subject := by
  unfold outcome
  cases stands with
  | same equal => rw [equal]
  | silenced e fails passes =>
    rw [fails, passes]
    rfl
  | failed e e' fails fails' => rw [fails, fails']

end TrustModule

theorem TrustDecision.ofChain_eq_notApplicable {d : ChainDecision} : ofChain d = .notApplicable ↔ d = .abstain := by
  cases d <;> simp [ofChain]

namespace TrustContext

/-- The chain without the modules that fail on a subject or have no opinion about it. -/
def withOpinion (c : TrustContext) (subject : Subject) : TrustContext :=
  { c with steps := c.steps.filter fun step => !step.module.isSilent subject }

theorem verdict_withOpinion (c : TrustContext) (subject : Subject) :
    (c.withOpinion subject).verdict subject = c.verdict subject := by
  have kept : ((c.withOpinion subject).steps.map fun step => (step.flag, step.module.outcome subject)) =
      decisive (c.steps.map fun step => (step.flag, step.module.outcome subject)) := by
    unfold withOpinion decisive
    rw [List.filter_map]
    congr 1
    refine List.filter_congr fun step _ => ?_
    have silent : step.module.outcome subject = .abstain ↔ step.module.isSilent subject = true :=
      TrustModule.outcome_eq_abstain
    rw [Bool.eq_iff_iff]
    simp only [Function.comp_apply, ne_eq, silent, Bool.not_eq_true, Bool.not_eq_true', decide_eq_true_eq]
  unfold verdict outcome
  rw [kept, (aggregate_decisive _).1]

theorem verdict_of_standsFor {c c' : TrustContext} {subject : Subject}
    (stand : List.Forall₂ (fun step step' => step.flag = step'.flag ∧
      TrustModule.StandsFor subject step.module step'.module) c.steps c'.steps) :
    c.verdict subject = c'.verdict subject := by
  have same : (c.steps.map fun step => (step.flag, step.module.outcome subject)) =
      c'.steps.map fun step => (step.flag, step.module.outcome subject) := by
    refine List.forall₂_eq_eq_eq ▸ List.forall₂_map_left_iff.mpr (List.forall₂_map_right_iff.mpr ?_)
    refine stand.imp fun step step' ⟨flags, stands⟩ => ?_
    rw [flags, stands.outcome_eq]
  unfold verdict outcome
  rw [same]

theorem verdict_eq_notApplicable {c : TrustContext} {subject : Subject} :
    c.verdict subject = .notApplicable ↔ ∀ step ∈ c.steps, step.module.isSilent subject = true := by
  rw [verdict, TrustDecision.ofChain_eq_notApplicable, outcome, aggregate_decision_eq_abstain, List.forall_mem_map]
  simp only [TrustModule.outcome_eq_abstain]

/-- What a trust chain decides about a subject, whatever has happened before. -/
theorem judge_answers (c : TrustContext) (subject : Subject) (trail : Trail) :
    ((c.judge subject).run trail).1 = c.verdict subject := by
  rw [judge_run]

/-- Trust is advisory. A module that fails or has no opinion leaves the decision of its chain to the others, under
every flag and in every place, and how a module fails does not matter. Nothing is decided only when no module has an
opinion. -/
theorem judge_of_opinions (c : TrustContext) (subject : Subject) (trail : Trail) :
    (∀ trail', ((c.judge subject).run trail).1 = (((c.withOpinion subject).judge subject).run trail').1) ∧
    (∀ (c' : TrustContext) trail', List.Forall₂ (fun step step' => step.flag = step'.flag ∧
        TrustModule.StandsFor subject step.module step'.module) c.steps c'.steps →
      ((c.judge subject).run trail).1 = ((c'.judge subject).run trail').1) ∧
    (((c.judge subject).run trail).1 = .notApplicable ↔ ∀ step ∈ c.steps,
      step.module.judge subject = .ok .notApplicable ∨ ∃ e, step.module.judge subject = .error e) := by
  simp only [judge_answers, ← TrustModule.isSilent_iff]
  refine ⟨fun _ => (c.verdict_withOpinion subject).symm, fun c' _ stand => verdict_of_standsFor stand, ?_⟩
  exact verdict_eq_notApplicable

/-- A requisite module and a sufficient one that fail neither end the chain nor make it refuse what its optional module
trusts. Without the optional module they decide nothing. -/
theorem judge_of_opinions_past_failures :
    let offline : TrustModule := ⟨fun _ => .error (.internal "offline"), ["offline"]⟩
    let passing : TrustModule := ⟨fun _ => .ok .notApplicable, []⟩
    let trusting : TrustModule := ⟨fun _ => .ok .trusted, ["asked"]⟩
    let mute : TrustContext := ⟨"edge", [⟨"directory", .requisite, offline⟩, ⟨"mirror", .sufficient, offline⟩]⟩
    let c : TrustContext := { mute with steps := mute.steps ++ [⟨"list", .optional, trusting⟩] }
    let c' : TrustContext := ⟨"edge", [⟨"directory", .requisite, passing⟩,
      ⟨"mirror", .sufficient, ⟨fun _ => .error (.invalid "mirror"), []⟩⟩, ⟨"list", .optional, trusting⟩]⟩
    let subject := Subject.anonymous
    List.Forall₂ (fun step step' : TrustStep => step.flag = step'.flag ∧
        TrustModule.StandsFor subject step.module step'.module) c.steps c'.steps ∧
      (c.withOpinion subject).steps.map (·.moduleId) = ["list"] ∧
      ((c.judge subject).run .empty).1 = .trusted ∧ ((c'.judge subject).run .empty).1 = .trusted ∧
      ((mute.judge subject).run .empty).1 = .notApplicable := by
  intro offline passing trusting mute c c' subject
  have stand : List.Forall₂ (fun step step' : TrustStep => step.flag = step'.flag ∧
      TrustModule.StandsFor subject step.module step'.module) c.steps c'.steps :=
    .cons ⟨rfl, .silenced _ rfl rfl⟩ (.cons ⟨rfl, .failed _ _ rfl rfl⟩ (.cons ⟨rfl, .same rfl⟩ .nil))
  obtain ⟨without, replaced, _⟩ := judge_of_opinions c subject .empty
  obtain ⟨_, _, nothing⟩ := judge_of_opinions mute subject .empty
  have trusted : ((c.judge subject).run .empty).1 = .trusted := by
    rw [without .empty]
    rfl
  refine ⟨stand, rfl, trusted, ?_, ?_⟩
  · rw [← replaced c' .empty stand, trusted]
  · refine nothing.mpr fun step member => .inr ?_
    rcases List.mem_pair.mp member with rfl | rfl
    · exact ⟨_, rfl⟩
    · exact ⟨_, rfl⟩

end TrustContext

end AccessControl
