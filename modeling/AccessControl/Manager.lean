import AccessControl.Context
import AccessControl.Providers

namespace AccessControl

/-- The entry point of one security domain. Its context, its mapping chains and its trust chain are built when they
are first needed and kept once that has succeeded. -/
structure Manager where
  config : DomainConfig
  providers : Providers
  sink : AuditSink
  context : Option Context
  mapping : Option Mapping
  trust : Option TrustContext

/-- A step of a manager. What it has built before a failure is kept. -/
abbrev ManagerM := ExceptT Error (StateT Manager Traced)

namespace ManagerM

def ofResult (result : Except Error α) : ManagerM α := ExceptT.mk (pure result)

def ofFallible (x : Fallible α) : ManagerM α := ExceptT.mk (StateT.lift x.run)

end ManagerM

namespace Manager

/-- A manager for a valid domain. Nothing is built yet. -/
def ofConfig (config : DomainConfig) (providers : Providers) (sink : AuditSink) : Except Error Manager := do
  config.validate
  pure ⟨config, providers, sink, none, none, none⟩

def domain (m : Manager) : String := m.config.name

def getContext : ManagerM Context := do
  let m ← get
  match m.context with
  | some context => pure context
  | none =>
    let context ← ManagerM.ofResult (Context.ofConfig m.config m.providers.modules m.sink)
    set { m with context := some context }
    pure context

def getMapping : ManagerM Mapping := do
  match (← get).mapping with
  | some mapping => pure mapping
  | none =>
    let m ← get
    let mapping ← ManagerM.ofFallible (Mapping.build m.config m.providers.roleMappers m.providers.principalMappers)
    modify fun m => { m with mapping := some mapping }
    pure mapping

def getTrust : ManagerM TrustContext := do
  match (← get).trust with
  | some trust => pure trust
  | none =>
    let m ← get
    let trust ← ManagerM.ofFallible (TrustContext.build m.config.name m.config.trust m.providers.trustModules)
    modify fun m => { m with trust := some trust }
    pure trust

/-- Maps the caller and then the roles, which the mappers see together with the mapped caller. -/
def mapRequest (request : Request) : ManagerM Request := do
  let mapping ← getMapping
  let subject ← ManagerM.ofResult (mapping.mapSubject request.subject)
  let roles ← ManagerM.ofResult (mapping.mapRoles subject request.roles)
  pure { request with subject, roles }

/-- Answers a request by the context of the domain, after mapping. -/
def authorize (lookup : AclLookup) (request : Request) : ManagerM Decision := do
  let context ← getContext
  let request ← mapRequest request
  let (result, context) ← ManagerM.ofFallible (ExceptT.lift (context.authorize lookup request))
  modify fun m => { m with context := some context }
  ManagerM.ofResult result

/-- The roles that a subject holds after mapping. -/
def subjectRoles (subject : Subject) (roles : RoleGroup) : ManagerM RoleGroup := do
  let mapping ← getMapping
  let subject ← ManagerM.ofResult (mapping.mapSubject subject)
  ManagerM.ofResult (mapping.mapRoles subject roles)

/-- Whether a subject holds a role after mapping. -/
def hasRole (subject : Subject) (roles : RoleGroup) (roleName : String) : ManagerM Bool := do
  pure ((← subjectRoles subject roles).holds roleName)

/-- Whether a caller is in the role that a component calls by this name. The settings of the domain say what the
component's references mean. -/
def isInRole (subject : Subject) (roles : RoleGroup) (roleName : String) (refs : List RoleRef) : ManagerM Bool := do
  let link ← ManagerM.ofResult ((← get).config.settings.resolveRoleRef refs roleName)
  hasRole subject roles (link.getD roleName)

/-- What the trust chain of the domain says about a subject. -/
def isTrusted (subject : Subject) : ManagerM TrustDecision := do
  let trust ← getTrust
  ManagerM.ofFallible (ExceptT.lift (trust.judge subject))

def description (m : Manager) : String :=
  openDescription "AuthorizationManager"
    [("domain", quoted m.domain), ("context_built", toString m.context.isSome)]

end Manager

end AccessControl
