import AccessControl.Proofs.ManagerRun

namespace AccessControl

theorem Trail.foldl_write {α : Type} (lines : α → List String) (xs : List α) (trail : Trail) :
    xs.foldl (fun t x => t.write (lines x)) trail = trail.write (xs.flatMap lines) := by
  induction xs generalizing trail with
  | nil => rw [List.flatMap_nil, Trail.write, List.append_nil]; rfl
  | cons x rest ih => rw [List.foldl_cons, ih, List.flatMap_cons, write, write, write, List.append_assoc]

namespace TrustContext

/-- What building the trust chain of a domain gives. -/
def result (domain : String) (entries : List ModuleEntry) (registry : Registry TrustModule) :
    Except Error TrustContext := do
  let steps ← entries.mapM fun e => do
    let module ← registry.result e.moduleId e.options
    pure (⟨e.moduleId, e.flag, module⟩ : TrustStep)
  pure ⟨domain, steps⟩

/-- What the modules of a trust chain come to when they judge a subject. -/
def outcome (c : TrustContext) (subject : Subject) : ChainOutcome :=
  aggregate (c.steps.map fun step => (step.flag, step.module.outcome subject))

/-- What a trust chain says about a subject, as a value. -/
def verdict (c : TrustContext) (subject : Subject) : TrustDecision := .ofChain (c.outcome subject).decision

/-- Judging a subject leaves the lines of the modules that are asked, and nothing else. -/
theorem judge_run (c : TrustContext) (subject : Subject) (trail : Trail) :
    (c.judge subject).run trail = (c.verdict subject,
      trail.write ((c.steps.take (c.outcome subject).evaluated).flatMap fun step => step.module.lines)) := by
  have run := runChain_visits (fun step : TrustStep => step.flag) (fun step => step.module.outcome subject)
    (fun step => (modify (·.write step.module.lines) : Traced Unit)) c.steps
  have marks := forM_modify (fun (step : TrustStep) t => t.write step.module.lines)
    (c.steps.take (c.outcome subject).evaluated) trail
  unfold judge ask
  rw [run, Traced.run_bind, Traced.run_bind]
  exact Prod.ext rfl ((congrArg Prod.snd marks).trans (Trail.foldl_write _ _ trail))

theorem build_gives {domain : String} {entries : List ModuleEntry} {registry : Registry TrustModule}
    (steady : ∀ e ∈ entries, registry.Steady e.moduleId e.options) :
    Fallible.Gives (build domain entries registry) (result domain entries registry) := by
  unfold build result
  refine (Fallible.gives_mapM fun e member => ?_).bind fun steps => Fallible.gives_pure (TrustContext.mk domain steps)
  have made : Fallible.Gives (registry.create e.moduleId e.options) (registry.result e.moduleId e.options) :=
    steady e member
  exact made.bind fun module => Fallible.gives_pure (TrustStep.mk e.moduleId e.flag module)

end TrustContext

namespace Manager

/-- All factories of a domain always give the same, those of its trust chain included. -/
structure AllSteady (m : Manager) : Prop extends m.Steady where
  trustModules : ∀ e ∈ m.config.trust, m.providers.trustModules.Steady e.moduleId e.options

/-- What the trust chain of the domain says about a subject, as a value. -/
def trustOf (m : Manager) (subject : Subject) : Except Error TrustDecision := do
  let trust ← TrustContext.result m.config.name m.config.trust m.providers.trustModules
  pure (trust.verdict subject)

variable {fresh m m' : Manager} (steady : fresh.AllSteady)

include steady

theorem getTrust_yields_result : ManagerM.Yields fresh.Keeps getTrust
    (· = TrustContext.result fresh.config.name fresh.config.trust fresh.providers.trustModules) := by
  intro m trail keeps
  have gives : Fallible.Gives (TrustContext.build fresh.config.name fresh.config.trust fresh.providers.trustModules)
      (TrustContext.result fresh.config.name fresh.config.trust fresh.providers.trustModules) :=
    TrustContext.build_gives steady.trustModules
  rw [ManagerM.result, ManagerM.after, getTrust_run]
  cases kept : m.trust with
  | some trust =>
    obtain ⟨before, built⟩ := keeps.trust trust kept
    exact ⟨built.symm.trans (gives before), keeps⟩
  | none =>
    have given := gives trail
    rw [← keeps.config, ← keeps.providers] at given
    refine keepPart_yields (p := (· = TrustContext.result fresh.config.name _ _)) keeps (fun trust made => ?_)
      fun e failed => ?_
    · refine ⟨?_, keeps.config, keeps.providers, keeps.sink, keeps.context, keeps.mapping, ?_⟩
      · rw [← keeps.config, ← keeps.providers]
        exact made.symm.trans given
      · rintro _ ⟨⟩
        rw [← keeps.config, ← keeps.providers]
        exact ⟨trail, made⟩
    · rw [← keeps.config, ← keeps.providers]
      exact failed.symm.trans given

/-- Asking about trust keeps the manager, and the answer is the value that the configuration alone gives. -/
theorem isTrusted_yields_trustOf (subject : Subject) :
    ManagerM.Yields fresh.Keeps (isTrusted subject) (· = fresh.trustOf subject) := by
  unfold isTrusted trustOf
  refine (getTrust_yields_result steady).bind_eq fun trust => ?_
  refine ManagerM.yields_ofFallible fun trail => ?_
  exact congrArg (fun r => Except.ok r.1) (trust.judge_run subject trail)

/-- A question is answered alike whatever the manager was asked before, and whatever has happened besides. -/
theorem Operation.result_eq {α : Type} {operation : ManagerM α} (asked : Operation operation) (keeps : fresh.Keeps m)
    (keeps' : fresh.Keeps m') (trail trail' : Trail) : operation.result m trail = operation.result m' trail' := by
  cases asked with
  | authorize lookup request =>
    have yields := authorize_yields steady.toSteady lookup request
    exact (yields m trail keeps).1.trans (yields m' trail' keeps').1.symm
  | subjectRoles subject roles =>
    have yields := subjectRoles_yields steady.toSteady subject roles
    exact (yields m trail keeps).1.trans (yields m' trail' keeps').1.symm
  | hasRole subject roles roleName =>
    have yields := hasRole_yields steady.toSteady subject roles roleName
    exact (yields m trail keeps).1.trans (yields m' trail' keeps').1.symm
  | isInRole subject roles roleName refs =>
    have yields := isInRole_yields steady.toSteady subject roles roleName refs
    exact (yields m trail keeps).1.trans (yields m' trail' keeps').1.symm
  | isTrusted subject =>
    have yields := isTrusted_yields_trustOf steady subject
    exact (yields m trail keeps).1.trans (yields m' trail' keeps').1.symm

end Manager

end AccessControl
