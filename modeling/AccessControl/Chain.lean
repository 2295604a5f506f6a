import AccessControl.ControlFlag
import AccessControl.Decision

namespace AccessControl

/-- What a chain decides. It abstains when no module had an opinion. -/
inductive ChainDecision
  | permit | deny | abstain
  deriving DecidableEq, Repr

/-- The final decision of a chain, with a fallback for one that abstains. -/
def ChainDecision.orElse (d : ChainDecision) (fallback : Decision) : Decision :=
  match d with
  | permit => .permit
  | deny => .deny
  | abstain => fallback

/-- A module that failed, by its place in the chain. -/
structure StepFailure where
  index : Nat
  flag : ControlFlag
  error : Option Error
  deriving DecidableEq, Repr

/-- All that is learned from running a chain. The deciding error is that of the requisite module that ended it. -/
structure ChainOutcome where
  decision : ChainDecision
  evaluated : Nat
  stoppedEarly : Bool
  failures : List StepFailure
  decidingError : Option Error
  deriving DecidableEq, Repr

/-- What is known after the first modules of a chain, none of which ended it. -/
structure Tally where
  evaluated : Nat
  failures : List StepFailure
  mandatoryFailed : Bool
  mandatoryPresent : Bool
  sufficientPresent : Bool
  optionalPresent : Bool
  optionalPermitted : Bool
  deriving DecidableEq, Repr

namespace Tally

def start : Tally := ⟨0, [], false, false, false, false, false⟩

/-- The decision of a chain that ran to its end. -/
def decision (t : Tally) : ChainDecision :=
  if t.mandatoryFailed then .deny
  else if t.mandatoryPresent then .permit
  else if t.sufficientPresent then .deny
  else if t.optionalPresent then (if t.optionalPermitted then .permit else .deny)
  else .abstain

def finish (t : Tally) : ChainOutcome := ⟨t.decision, t.evaluated, false, t.failures, none⟩

/-- The outcome of a chain that ends after the modules seen so far. -/
def stop (t : Tally) (decision : ChainDecision) (error : Option Error) : ChainOutcome :=
  ⟨decision, t.evaluated, true, t.failures, error⟩

/-- Counts one more module that had an opinion, noting a failure. -/
def note (t : Tally) (flag : ControlFlag) (outcome : Outcome) : Tally :=
  { t with
    evaluated := t.evaluated + 1
    failures := if outcome.isFailure then t.failures ++ [⟨t.evaluated, flag, outcome.error?⟩] else t.failures }

/-- Takes in the outcome of the next module. Either the chain ends here or it goes on with a new tally. An abstaining
module leaves no trace but the count. -/
def record (t : Tally) (flag : ControlFlag) (outcome : Outcome) : Except ChainOutcome Tally :=
  if outcome = .abstain then .ok { t with evaluated := t.evaluated + 1 }
  else
    let failed := outcome.isFailure
    let next := t.note flag outcome
    match flag with
    | .required =>
      .ok { next with mandatoryPresent := true, mandatoryFailed := t.mandatoryFailed || failed }
    | .requisite =>
      if failed then .error (next.stop .deny outcome.error?) else .ok { next with mandatoryPresent := true }
    | .sufficient =>
      if !failed && !t.mandatoryFailed then .error (next.stop .permit none)
      else .ok { next with sufficientPresent := true }
    | .optional =>
      .ok { next with optionalPresent := true, optionalPermitted := t.optionalPermitted || !failed }

end Tally

/-- Runs the rest of a chain. A step after the end of the chain is never run. -/
def runSteps {m : Type → Type} [Monad m] (t : Tally) : List (ControlFlag × m Outcome) → m ChainOutcome
  | [] => pure t.finish
  | (flag, step) :: rest => do
    match t.record flag (← step) with
    | .error outcome => pure outcome
    | .ok next => runSteps next rest

/-- Runs the steps of a chain in order and combines their outcomes by their flags. -/
def runChain {m : Type → Type} [Monad m] (steps : List (ControlFlag × m Outcome)) : m ChainOutcome :=
  runSteps .start steps

/-- Combines outcomes that are already known. -/
def aggregate (steps : List (ControlFlag × Outcome)) : ChainOutcome :=
  Id.run (runChain (steps.map fun s => (s.1, pure s.2)))

end AccessControl
