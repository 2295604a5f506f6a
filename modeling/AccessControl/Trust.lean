import AccessControl.Chain
import AccessControl.Domain
import AccessControl.Registry
import AccessControl.Subject

namespace AccessControl

/-- Whether an identity is trusted, or that nobody has an opinion. -/
inductive TrustDecision
  | trusted | distrusted | notApplicable
  deriving DecidableEq, Repr

namespace TrustDecision

def all : List TrustDecision := [trusted, distrusted, notApplicable]

/-- The word shown to people. -/
def text : TrustDecision → String
  | trusted => "TRUSTED"
  | distrusted => "DISTRUSTED"
  | notApplicable => "NOT_APPLICABLE"

def storedName : TrustDecision → String
  | trusted => "trusted"
  | distrusted => "distrusted"
  | notApplicable => "not_applicable"

def ofStoredName? (word : String) : Option TrustDecision := all.find? (·.storedName == word)

/-- How an opinion counts in a chain. -/
def toOutcome : TrustDecision → Outcome
  | trusted => .permit
  | distrusted => .deny
  | notApplicable => .abstain

/-- What the decision of a chain says about trust. -/
def ofChain : ChainDecision → TrustDecision
  | .permit => trusted
  | .deny => distrusted
  | .abstain => notApplicable

end TrustDecision

/-- A trust module. It may write lines each time it is asked. -/
structure TrustModule where
  judge : Subject → Except Error TrustDecision
  lines : List String

namespace TrustModule

/-- Judges callers by name; a name in both lists is not trusted. Subjects without a caller are not judged. -/
def byName (trusted distrusted : SortedSet String) : TrustModule :=
  ⟨fun subject =>
    match subject.caller with
    | none => .ok .notApplicable
    | some caller =>
      if distrusted.contains caller.name then .ok .distrusted
      else if trusted.contains caller.name then .ok .trusted
      else .ok .notApplicable, []⟩

def principalList (options : Options) : Except Error TrustModule := do
  let trusted ← options.list "trusted"
  let distrusted ← options.list "distrusted"
  pure (byName (.ofElements trusted) (.ofElements distrusted))

/-- Trust is advisory: a module that fails counts as one without an opinion. -/
def outcome (m : TrustModule) (subject : Subject) : Outcome :=
  match m.judge subject with
  | .ok decision => decision.toOutcome
  | .error _ => .abstain

end TrustModule

/-- One module of a trust chain. -/
structure TrustStep where
  moduleId : String
  flag : ControlFlag
  module : TrustModule

/-- The trust chain of a domain. -/
structure TrustContext where
  domain : String
  steps : List TrustStep

namespace TrustContext

def build (domain : String) (entries : List ModuleEntry) (registry : Registry TrustModule) :
    Fallible TrustContext := do
  let steps ← entries.mapM fun e => do
    let module ← registry.create e.moduleId e.options
    pure (⟨e.moduleId, e.flag, module⟩ : TrustStep)
  pure ⟨domain, steps⟩

/-- Asks one module and writes down its lines. -/
def ask (subject : Subject) (step : TrustStep) : Traced Outcome := do
  modify (·.write step.module.lines)
  pure (step.module.outcome subject)

/-- Runs the chain for a subject, by the same rules as an authorization chain. -/
def judge (c : TrustContext) (subject : Subject) : Traced TrustDecision := do
  let outcome ← runChain (c.steps.map fun step => (step.flag, ask subject step))
  pure (.ofChain outcome.decision)

def description (c : TrustContext) : String :=
  AccessControl.description "IdentityTrustContext"
    [("domain", quoted c.domain), ("modules", quotedList (c.steps.map (·.moduleId)))]

end TrustContext

end AccessControl
