import AccessControl.Context
import AccessControl.SortedMap.Lemmas
import Mathlib.Data.List.Nodup

namespace AccessControl

/-- How an audit event words a control flag. -/
def flagEntry : ControlFlag → String × String
  | .required => ("flag", "REQUIRED")
  | .requisite => ("flag", "REQUISITE")
  | .sufficient => ("flag", "SUFFICIENT")
  | .optional => ("flag", "OPTIONAL")

/-- How an audit event words an outcome. What went wrong is not told. -/
def outcomeEntry : Outcome → String × String
  | .permit => ("outcome", "permit")
  | .deny => ("outcome", "deny")
  | .abstain => ("outcome", "abstain")
  | .error _ => ("outcome", "error")

/-- An audit event that tells the outcome of one module, and nothing else. -/
structure AuditEvent.TellsOutcome (event : AuditEvent) (domain : String) (resource : Resource) (entry : ModuleEntry)
    (outcome : Outcome) : Prop where
  level : event.level = .info
  context : event.context.entries.Perm [("domain", domain), ("resource", resource.text), ("module", entry.moduleId),
    flagEntry entry.flag, outcomeEntry outcome]
  underlyingError : event.underlyingError = none

/-- The name of the caller in an audit event. -/
def callerAmong : List Principal → String
  | [] => "<anonymous>"
  | first :: _ => first.name

/-- How an audit event words what kind of thing went wrong. -/
def kindEntry : ErrorKind → String × String
  | .configuration => ("error_kind", "configuration")
  | .authorization => ("error_kind", "authorization")
  | .invalid => ("error_kind", "invalid")
  | .notFound => ("error_kind", "not_found")
  | .alreadyExists => ("error_kind", "already_exists")
  | .internal => ("error_kind", "internal")

/-- How an audit event words an answer. -/
def answerEntry : Except Error Decision → String × String
  | .ok .permit => ("decision", "PERMIT")
  | .ok .deny => ("decision", "DENY")
  | .error e => kindEntry e.kind

def answerLevel : Except Error Decision → AuditLevel
  | .ok .permit => .success
  | .ok .deny => .failure
  | .error _ => .error

def answerError : Except Error Decision → Option String
  | .ok _ => none
  | .error e => some e.text

/-- What the event about an answer says whatever the attributes of the resource are. -/
def coreEntries (domain : String) (request : Request) (answer : Except Error Decision) : List (String × String) :=
  [("domain", domain), ("resource", request.resource.text), ("caller", callerAmong request.subject.principals),
    answerEntry answer]

/-- The attributes of a resource as the event about an answer repeats them. -/
def attributeEntries (resource : Resource) : List (String × String) :=
  resource.attributes.entries.map fun a => ("attribute." ++ a.1, a.2)

/-- An audit event that tells the answer to a request, and nothing else. -/
structure AuditEvent.TellsAnswer (event : AuditEvent) (domain : String) (request : Request)
    (answer : Except Error Decision) : Prop where
  success : event.level = .success ↔ answer = .ok .permit
  failure : event.level = .failure ↔ answer = .ok .deny
  error : event.level = .error ↔ ∃ e, answer = .error e
  context : event.context.entries.Perm (coreEntries domain request answer ++ attributeEntries request.resource)
  underlyingError : ∀ text, event.underlyingError = some text ↔ ∃ e, answer = .error e ∧ text = e.text

/-- What an event says under a name is what its entries say there, each name having one entry only. -/
theorem AuditEvent.TellsAnswer.get?_eq_some {event : AuditEvent} {domain : String} {request : Request}
    {answer : Except Error Decision} (tells : event.TellsAnswer domain request answer) {key value : String} :
    event.get? key = some value ↔
      (key, value) ∈ coreEntries domain request answer ∨ (key, value) ∈ attributeEntries request.resource := by
  rw [AuditEvent.get?, ← SortedMap.mem_entries_iff, tells.context.mem_iff, List.mem_append]

def coreKeys : Except Error Decision → List String
  | .ok _ => ["domain", "resource", "caller", "decision"]
  | .error _ => ["domain", "resource", "caller", "error_kind"]

theorem flagEntry_eq (flag : ControlFlag) : flagEntry flag = ("flag", flag.name) := by
  cases flag <;> rfl

theorem outcomeEntry_eq (outcome : Outcome) : outcomeEntry outcome = ("outcome", outcome.label) := by
  cases outcome <;> rfl

theorem kindEntry_eq (kind : ErrorKind) : kindEntry kind = ("error_kind", kind.label) := by
  cases kind <;> rfl

theorem answerEntry_ok (decision : Decision) : answerEntry (.ok decision) = ("decision", decision.text) := by
  cases decision <;> rfl

theorem answerEntry_error (e : Error) : answerEntry (.error e) = ("error_kind", e.kind.label) := kindEntry_eq e.kind

theorem coreEntries_keys (domain : String) (request : Request) (answer : Except Error Decision) :
    (coreEntries domain request answer).map (·.1) = coreKeys answer := by
  cases answer with
  | ok decision =>
    rw [coreEntries, answerEntry_ok]
    rfl
  | error e =>
    rw [coreEntries, answerEntry_error]
    rfl

theorem coreKeys_distinct (answer : Except Error Decision) : (coreKeys answer).Nodup := by
  cases answer <;> simp [coreKeys]

/-- An attribute stands under a name that nothing else has. -/
theorem attribute_not_mem_coreKeys (answer : Except Error Decision) (name : String) :
    "attribute." ++ name ∉ coreKeys answer := by
  have start : ∀ key ∈ coreKeys answer, key.toList.head? ≠ some 'a' := by
    cases answer <;> simp [coreKeys]
  intro core
  have impossible := start _ core
  rw [String.toList_append] at impossible
  exact impossible rfl

theorem attributeEntries_distinct (resource : Resource) : ((attributeEntries resource).map (·.1)).Nodup := by
  have injective : Function.Injective ("attribute." ++ ·) := fun _ _ same => (String.append_right_inj _).mp same
  have keys := resource.attributes.keys_nodup.map injective
  rw [SortedMap.keys, List.map_map] at keys
  rw [attributeEntries, List.map_map]
  exact keys

theorem answerEntries_distinct (domain : String) (request : Request) (answer : Except Error Decision) :
    ((coreEntries domain request answer ++ attributeEntries request.resource).map (·.1)).Nodup := by
  rw [List.map_append, coreEntries_keys]
  refine (coreKeys_distinct answer).append (attributeEntries_distinct request.resource) ?_
  intro key core inside
  obtain ⟨_, copied, rfl⟩ := List.mem_map.mp inside
  obtain ⟨a, _, rfl⟩ := List.mem_map.mp copied
  exact attribute_not_mem_coreKeys answer a.1 core

theorem answerLevel_iff (answer : Except Error Decision) :
    (answerLevel answer = .success ↔ answer = .ok .permit) ∧ (answerLevel answer = .failure ↔ answer = .ok .deny) ∧
      (answerLevel answer = .error ↔ ∃ e, answer = .error e) := by
  match answer with
  | .ok .permit => simp [answerLevel]
  | .ok .deny => simp [answerLevel]
  | .error e => simp [answerLevel]

theorem answerError_eq_some {answer : Except Error Decision} {text : String} :
    answerError answer = some text ↔ ∃ e, answer = .error e ∧ text = e.text := by
  cases answer with
  | ok decision => simp [answerError]
  | error e => simp [answerError, eq_comm]

namespace Context

theorem callerName_eq (subject : Subject) : callerName subject = callerAmong subject.principals := by
  unfold callerName Subject.caller
  cases subject.principals <;> rfl

theorem moduleEvent_tells (c : Context) (resource : Resource) (entry : ModuleEntry) (outcome : Outcome) :
    (c.moduleEvent resource entry outcome).TellsOutcome c.domain resource entry outcome := by
  have distinct : ([("domain", c.domain), ("resource", resource.text), ("module", entry.moduleId),
      ("flag", entry.flag.name), ("outcome", outcome.label)].map (·.1)).Nodup := by
    simp
  refine ⟨rfl, ?_, rfl⟩
  rw [flagEntry_eq, outcomeEntry_eq]
  exact SortedMap.ofList_perm distinct

/-- Repeating the attributes changes nothing but the context. -/
theorem foldl_withEntry (attributes : List (String × String)) (event : AuditEvent) :
    attributes.foldl (fun e a => e.withEntry ("attribute." ++ a.1) a.2) event =
      { event with context :=
          (attributes.map fun a => ("attribute." ++ a.1, a.2)).foldl (fun m a => m.insert a.1 a.2) event.context } := by
  induction attributes generalizing event with
  | nil => rfl
  | cons a rest ih => exact ih _

theorem decisionEvent_eq (c : Context) (request : Request) (answer : Except Error Decision) :
    c.decisionEvent request answer = {
      level := answerLevel answer
      context := .ofList ([("domain", c.domain), ("resource", request.resource.text),
        ("caller", callerAmong request.subject.principals)] ++ attributeEntries request.resource ++
          [answerEntry answer])
      underlyingError := answerError answer } := by
  unfold decisionEvent
  simp only [foldl_withEntry, callerName_eq, SortedMap.ofList, List.foldl_append]
  cases answer with
  | ok decision => cases decision <;> rfl
  | error e =>
    rw [answerEntry_error]
    rfl

theorem decisionEvent_tells (c : Context) (request : Request) (answer : Except Error Decision) :
    (c.decisionEvent request answer).TellsAnswer c.domain request answer := by
  rw [decisionEvent_eq]
  have moved : ([("domain", c.domain), ("resource", request.resource.text),
      ("caller", callerAmong request.subject.principals)] ++ attributeEntries request.resource ++
        [answerEntry answer]).Perm (coreEntries c.domain request answer ++ attributeEntries request.resource) := by
    rw [List.append_assoc]
    exact .append_left _ List.perm_append_comm
  have distinct := (moved.map (·.1)).nodup_iff.mpr (answerEntries_distinct c.domain request answer)
  obtain ⟨success, failure, error⟩ := answerLevel_iff answer
  exact ⟨success, failure, error, (SortedMap.ofList_perm distinct).trans moved, fun _ => answerError_eq_some⟩

end Context

end AccessControl
