import AccessControl.Configuration
import AccessControl.Manager

namespace AccessControl

/-- One manager for each security domain that has been asked for. Managers are numbered in the order in which they
were created; one that has been dropped keeps its number, and whoever holds that number can go on using it. -/
structure Domains where
  configuration : Configuration
  providers : Providers
  sink : AuditSink
  managers : List Manager
  cached : SortedMap String Nat

/-- A step on the managers. What has been built or cached before a failure is kept. -/
abbrev DomainsM := ExceptT Error (StateT Domains Traced)

namespace Domains

def start (configuration : Configuration) (providers : Providers) (sink : AuditSink) : Domains :=
  ⟨configuration, providers, sink, [], .empty⟩

def ofResult (result : Except Error α) : DomainsM α := ExceptT.mk (pure result)

/-- The number of the manager for a domain, which is created if none is cached. -/
def manager (name : String) : DomainsM Nat := do
  let d ← get
  match d.cached.get? name with
  | some number => pure number
  | none =>
    let config ← ofResult (d.configuration.domain name)
    let m ← ofResult (Manager.ofConfig config d.providers d.sink)
    let number := d.managers.length
    set { d with managers := d.managers ++ [m], cached := d.cached.insert name number }
    pure number

/-- Lets a manager take a step. -/
def withManager (number : Nat) (step : ManagerM α) : DomainsM α := ExceptT.mk do
  match (← get).managers[number]? with
  | none => pure (.error (.internal s!"no manager has the number {number}"))
  | some m =>
    let (result, m) ← StateT.lift (step.run.run m)
    modify fun d => { d with managers := d.managers.set number m }
    pure result

/-- Answers a request by the manager for a domain. -/
def authorize (name : String) (lookup : AclLookup) (request : Request) : DomainsM Decision := do
  withManager (← manager name) (Manager.authorize lookup request)

/-- Drops the manager for a domain. Says whether one was cached. -/
def remove (d : Domains) (name : String) : Bool × Domains :=
  (d.cached.contains name, { d with cached := d.cached.erase name })

/-- The domains with a cached manager. -/
def cachedNames (d : Domains) : List String := d.cached.keys

def description (d : Domains) : String :=
  openDescription "SecurityDomains" [("cached", quotedList d.cachedNames)]

end Domains

end AccessControl
