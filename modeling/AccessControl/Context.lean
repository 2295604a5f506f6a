import AccessControl.Chain
import AccessControl.Domain
import AccessControl.Module
import AccessControl.Registry

namespace AccessControl

namespace Settings

/-- The resource as modules see it: its role check, if any, carries the role that the references link it to. -/
def linkRoles (s : Settings) (resource : Resource) : Except Error Resource :=
  match resource.roleCheck? with
  | none => .ok resource
  | some (check, refs) => do
    match ← s.resolveRoleRef refs check.roleName with
    | some role => pure (resource.linkRole role)
    | none => pure resource

def description (s : Settings) : String :=
  let decision := match s.emptyChainDecision with
    | .permit => "Permit"
    | .deny => "Deny"
  AccessControl.description "DomainSettings"
    [("empty_chain_decision", decision), ("enforce_role_ref_restriction", toString s.enforceRoleRefs),
     ("declared_roles", "\x7b" ++ commaList (s.declaredRoles.keys.map quoted) ++ "\x7d")]

end Settings

/-- A place in a chain: its entry, and its module once that has been built. -/
structure Cell where
  entry : ModuleEntry
  built : Option Module

/-- Evaluates the chain of one security domain. Modules are built when they are first needed and kept from then on. -/
structure Context where
  domain : String
  cells : List Cell
  settings : Settings
  registry : Registry Module
  sink : AuditSink

/-- Builds the modules that are not there yet, in order. The first that cannot be built ends this with its error;
those built before it are kept. -/
def buildCells (registry : Registry Module) : List Cell → Traced (List Cell × Except Error (List Module))
  | [] => pure ([], .ok [])
  | cell :: rest => do
    let result ← match cell.built with
      | some module => pure (.ok module)
      | none => (registry.create cell.entry.moduleId cell.entry.options).run
    match result with
    | .error e => pure (cell :: rest, .error e)
    | .ok module =>
      let (others, modules) ← buildCells registry rest
      pure ({ cell with built := some module } :: others, modules.map (module :: ·))

namespace Context

/-- A context for a valid domain whose modules are all registered. Nothing is built yet. -/
def ofConfig (config : DomainConfig) (registry : Registry Module) (sink : AuditSink) : Except Error Context := do
  config.validate
  match config.authorization.find? fun e => !registry.contains e.moduleId with
  | some e =>
    throw (.configuration
      s!"security domain '{config.name}' uses unknown authorization module '{e.moduleId}'")
  | none => pure ⟨config.name, config.authorization.map (⟨·, none⟩), config.settings, registry, sink⟩

def entries (c : Context) : List ModuleEntry := c.cells.map (·.entry)

def moduleIds (c : Context) : List String := c.entries.map (·.moduleId)

/-- The audit event about one module that has been asked. -/
def moduleEvent (c : Context) (resource : Resource) (entry : ModuleEntry) (outcome : Outcome) : AuditEvent :=
  ((((AuditEvent.ofLevel .info).withEntry "domain" c.domain).withEntry "resource" resource.text).withEntry
    "module" entry.moduleId |>.withEntry "flag" entry.flag.name).withEntry "outcome" outcome.label

/-- Asks a module, writes down its lines and records an audit event about its outcome. -/
def ask (c : Context) (lookup : AclLookup) (request : Request) (entry : ModuleEntry) (module : Module) :
    Traced Outcome := do
  let outcome := module.answer lookup request
  modify fun t => (t.write (module.lines request)).deliver c.sink (c.moduleEvent request.resource entry outcome)
  pure outcome

/-- Runs the chain with modules that have been built. -/
def evaluate (c : Context) (lookup : AclLookup) (request : Request) (modules : List Module) : Traced ChainOutcome :=
  runChain ((c.entries.zip modules).map fun (entry, module) => (entry.flag, c.ask lookup request entry module))

/-- The answer that a chain leads to. A requisite module that ended it with an error makes the request fail. -/
def conclude (c : Context) (outcome : ChainOutcome) : Except Error Decision :=
  match outcome.decidingError with
  | some e => .error (.authorization s!"requisite module failed in domain '{c.domain}': {e.text}")
  | none => .ok (outcome.decision.orElse c.settings.emptyChainDecision)

/-- How audit events name the caller of a subject. -/
def callerName (subject : Subject) : String := (subject.caller.map (·.name)).getD "<anonymous>"

/-- The audit event about the answer to a request. Attributes stand under names of their own, so that none of them
can take the place of another entry. -/
def decisionEvent (c : Context) (request : Request) (result : Except Error Decision) : AuditEvent :=
  let level := match result with
    | .ok .permit => .success
    | .ok .deny => .failure
    | .error _ => .error
  let core := (((AuditEvent.ofLevel level).withEntry "domain" c.domain).withEntry "resource"
    request.resource.text).withEntry "caller" (callerName request.subject)
  let base := request.resource.attributes.entries.foldl
    (fun event a => event.withEntry ("attribute." ++ a.1) a.2) core
  match result with
  | .ok decision => base.withEntry "decision" decision.text
  | .error e => (base.withEntry "error_kind" e.kind.label).withError e.text

/-- Answers a request: builds the modules, links the role check, runs the chain, and records what came of it. -/
def authorize (c : Context) (lookup : AclLookup) (request : Request) :
    Traced (Except Error Decision × Context) := do
  let (cells, modules) ← buildCells c.registry c.cells
  let result ← match modules with
    | .error e => pure (.error e)
    | .ok modules =>
      match c.settings.linkRoles request.resource with
      | .error e => pure (.error e)
      | .ok resource => do
        let outcome ← c.evaluate lookup { request with resource } modules
        pure (c.conclude outcome)
  modify (·.deliver c.sink (c.decisionEvent request result))
  pure (result, { c with cells })

def description (c : Context) : String :=
  openDescription "AuthorizationContext"
    [("domain", quoted c.domain), ("modules", quotedList c.moduleIds), ("settings", c.settings.description)]

end Context

end AccessControl
