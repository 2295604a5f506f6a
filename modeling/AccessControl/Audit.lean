import AccessControl.Error
import AccessControl.Text.Quoted

namespace AccessControl

/-- What an audit event says about a request: granted, refused, not evaluated, or only that something happened. -/
inductive AuditLevel
  | success | failure | error | info
  deriving DecidableEq, Repr

namespace AuditLevel

def word : AuditLevel → String
  | success => "success"
  | failure => "failure"
  | error => "error"
  | info => "info"

def ofWord? (word : String) : Option AuditLevel := [success, failure, error, info].find? (·.word == word)

end AuditLevel

/-- One audit record. -/
structure AuditEvent where
  level : AuditLevel
  context : SortedMap String String
  underlyingError : Option String
  deriving DecidableEq

namespace AuditEvent

def ofLevel (level : AuditLevel) : AuditEvent := ⟨level, .empty, none⟩

/-- Sets an entry of the context. -/
def withEntry (e : AuditEvent) (key value : String) : AuditEvent :=
  { e with context := e.context.insert key value }

def withError (e : AuditEvent) (text : String) : AuditEvent := { e with underlyingError := some text }

def get? (e : AuditEvent) (key : String) : Option String := e.context.get? key

/-- A missing error is left out. -/
def toJson (e : AuditEvent) : Json :=
  .obj (("context", Json.ofTexts e.context) :: ("level", .str e.level.word) ::
    (e.underlyingError.map fun text => ("underlying_error", .str text)).toList)

def ofJson? (j : Json) : Option AuditEvent := do
  let fields ← j.fields? ["level", "context", "underlying_error"]
  let level ← fields.required "level" fun l => l.word?.bind AuditLevel.ofWord?
  let context ← fields.required "context" Json.texts?
  let underlyingError ← fields.optional "underlying_error" Json.text?
  pure ⟨level, context, underlyingError⟩

end AuditEvent

/-- How serious a line of the log is. -/
inductive LogLevel
  | info | warn | error
  deriving DecidableEq, Repr

def LogLevel.word : LogLevel → String
  | info => "INFO"
  | warn => "WARN"
  | error => "ERROR"

/-- A structured line of the log. -/
structure LogRecord where
  level : LogLevel
  target : String
  fields : SortedMap String String

/-- Where audit events appear in the log. -/
def auditTarget : String := "bastion::audit"

/-- A map of texts as a description shows it. -/
def textMapDescription (m : SortedMap String String) : String :=
  "\x7b" ++ commaList (m.entries.map fun e => quoted e.1 ++ ": " ++ quoted e.2) ++ "\x7d"

/-- The line of the log for an event. Only an event about an error has a field for it, which may be empty. -/
def AuditEvent.logRecord (e : AuditEvent) : LogRecord :=
  let fields := SortedMap.ofList
    [("audit_level", e.level.word), ("context", textMapDescription e.context), ("message", "audit")]
  match e.level with
  | .success | .info => ⟨.info, auditTarget, fields⟩
  | .failure => ⟨.warn, auditTarget, fields⟩
  | .error => ⟨.error, auditTarget, fields.insert "error" (e.underlyingError.getD "")⟩

/-- What becomes of audit events. -/
inductive AuditSink
  | discard | keep
  deriving DecidableEq, Repr

/-- The events kept after one more has been delivered. -/
def AuditSink.deliver (sink : AuditSink) (events : List AuditEvent) (e : AuditEvent) : List AuditEvent :=
  match sink with
  | discard => events
  | keep => events ++ [e]

/-- What can be observed of a run besides its answers: how often each scripted provider was built, the lines that
providers wrote, and the audit events that were kept, oldest first. -/
structure Trail where
  builds : SortedMap String Nat
  lines : List String
  events : List AuditEvent

namespace Trail

def empty : Trail := ⟨.empty, [], []⟩

def buildCount (t : Trail) (id : String) : Nat := (t.builds.get? id).getD 0

def countBuild (t : Trail) (id : String) : Trail := { t with builds := t.builds.insert id (t.buildCount id + 1) }

def write (t : Trail) (lines : List String) : Trail := { t with lines := t.lines ++ lines }

def deliver (t : Trail) (sink : AuditSink) (e : AuditEvent) : Trail :=
  { t with events := sink.deliver t.events e }

end Trail

/-- A computation that may leave marks on the trail. -/
abbrev Traced := StateM Trail

/-- A computation that may also fail. Marks left before a failure stay. -/
abbrev Fallible := ExceptT Error Traced

/-- A result that is already known. -/
def Fallible.ofResult (result : Except Error α) : Fallible α := ExceptT.mk (pure result)

end AccessControl
