import AccessControl.Error

namespace AccessControl

/-- The final answer to a request. -/
inductive Decision
  | permit | deny
  deriving DecidableEq, Repr

/-- What one module makes of a request. -/
inductive Outcome
  | permit | deny | abstain
  | error (e : Error)
  deriving DecidableEq, Repr

namespace Decision

def ofBool (permitted : Bool) : Decision := if permitted then permit else deny

def isPermit : Decision → Bool
  | permit => true
  | deny => false

/-- The word shown to people. -/
def text : Decision → String
  | permit => "PERMIT"
  | deny => "DENY"

/-- The word used where decisions are stored. -/
def storedName : Decision → String
  | permit => "permit"
  | deny => "deny"

def ofStoredName? (word : String) : Option Decision := [permit, deny].find? (·.storedName == word)

def toOutcome : Decision → Outcome
  | permit => .permit
  | deny => .deny

def toJson (d : Decision) : Json := .str d.storedName

def ofJson? (j : Json) : Option Decision := j.word?.bind ofStoredName?

end Decision

namespace Outcome

def permitIf (permitted : Bool) : Outcome := if permitted then permit else deny

/-- A decision that could not be made is an error. -/
def ofResult : Except Error Decision → Outcome
  | .ok d => d.toOutcome
  | .error e => error e

/-- The short word written into audit events. -/
def label : Outcome → String
  | permit => "permit"
  | deny => "deny"
  | abstain => "abstain"
  | error _ => "error"

/-- Whether the outcome counts against its chain. An error does, like a refusal. -/
def isFailure : Outcome → Bool
  | deny | error _ => true
  | permit | abstain => false

def error? : Outcome → Option Error
  | error e => some e
  | _ => none

@[simp] theorem isFailure_permit : permit.isFailure = false := rfl
@[simp] theorem isFailure_deny : deny.isFailure = true := rfl
@[simp] theorem isFailure_abstain : abstain.isFailure = false := rfl
@[simp] theorem isFailure_error (e : Error) : (error e).isFailure = true := rfl
@[simp] theorem error?_permit : permit.error? = none := rfl
@[simp] theorem error?_deny : deny.error? = none := rfl
@[simp] theorem error?_error (e : Error) : (error e).error? = some e := rfl

/-- Reads an outcome: a word for it, or an error. -/
def ofJson? : Json → Option Outcome
  | .str "permit" => some permit
  | .str "deny" => some deny
  | .str "abstain" => some abstain
  | .str _ => none
  | j => (j.member? "error").bind fun e => (Error.ofJson? e).map error

end Outcome

end AccessControl
