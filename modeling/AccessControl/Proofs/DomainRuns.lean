import AccessControl.Domains
import AccessControl.Proofs.Traversals
import AccessControl.Proofs.QuestionAttempts
import AccessControl.Proofs.StandardDomain
import AccessControl.Proofs.StoreRuns

namespace AccessControl

namespace Providers

/-- Every factory always gives the same. What it leaves on the trail is not restricted. -/
structure Deterministic (p : Providers) : Prop where
  modules : ∀ id options, p.modules.Steady id options
  roleMappers : ∀ id options, p.roleMappers.Steady id options
  principalMappers : ∀ id options, p.principalMappers.Steady id options
  trustModules : ∀ id options, p.trustModules.Steady id options

theorem Standard.deterministic {library : Providers} (standard : library.Standard) : library.Deterministic where
  modules id options := (Registry.silent_of_makes (standard.modules id) options).steady
  roleMappers id options := (Registry.silent_of_makes (standard.roleMappers id) options).steady
  principalMappers id options := (Registry.silent_of_makes (standard.principalMappers id) options).steady
  trustModules id options := (Registry.silent_of_makes (standard.trustModules id) options).steady

theorem Deterministic.allSteady {providers : Providers} (deterministic : providers.Deterministic)
    {config : DomainConfig} {sink : AuditSink} {m : Manager} (made : Manager.ofConfig config providers sink = .ok m) :
    m.AllSteady := by
  obtain ⟨_, rfl⟩ := Manager.ofConfig_eq_ok.mp made
  exact ⟨⟨fun _ _ => deterministic.modules _ _, fun _ _ => deterministic.roleMappers _ _,
    fun _ _ => deterministic.principalMappers _ _⟩, fun _ _ => deterministic.trustModules _ _⟩

end Providers

namespace Configuration

theorem domain_eq_ok {c : Configuration} {name : String} {d : DomainConfig} :
    c.domain name = .ok d ↔ c.domains.get? name = some d := by
  unfold domain
  cases c.domains.get? name with
  | none => exact ⟨nofun, nofun⟩
  | some found =>
    exact ⟨fun same => congrArg some (Except.ok.inj same), fun same => congrArg Except.ok (Option.some.inj same)⟩

theorem failsOnly_domain (c : Configuration) (name : String) : FailsOnly .configuration (c.domain name) := by
  unfold domain
  cases c.domains.get? name with
  | none => exact failsOnly_error rfl
  | some found => exact failsOnly_ok found

/-- Every domain can have a manager. -/
def Valid (c : Configuration) : Prop := ∀ name d, c.domain name = .ok d → d.validate = .ok ()

theorem Valid.withDomain {c c' : Configuration} {d : DomainConfig} (valid : c.Valid) (added : c.withDomain d = .ok c') :
    c'.Valid := by
  obtain ⟨_, validated, added⟩ := bind_eq_ok.mp added
  split at added
  · cases added
  · cases added
    intro name found stored
    have given := domain_eq_ok.mp stored
    rw [SortedMap.get?_insert] at given
    split at given
    · cases given
      exact validated
    · exact valid name found (domain_eq_ok.mpr given)

theorem valid_of_ofDomains {domains : List DomainConfig} {c : Configuration} (made : ofDomains domains = .ok c) :
    c.Valid := by
  have start : empty.Valid := fun _ _ stored => nomatch stored
  exact foldlM_keeps Valid (fun _ _ _ valid added => valid.withDomain added) start made

end Configuration

namespace DomainsM

variable {α : Type}

def result (x : DomainsM α) (d : Domains) (trail : Trail) : Except Error α := ((x.run.run d).run trail).1.1

def after (x : DomainsM α) (d : Domains) (trail : Trail) : Domains := ((x.run.run d).run trail).1.2

def left (x : DomainsM α) (d : Domains) (trail : Trail) : Trail := ((x.run.run d).run trail).2

end DomainsM

/-- What was done in one call, as far as it may matter to later calls: the domain that was looked up and the number of
its manager, if any, and the attempts to build parts of a manager. -/
inductive Deed
  | manager (name : String) (number : Except Error Nat)
  | authorize (name : String) (number : Except Error Nat) (attempts : List Attempt)
  | remove (name : String)
  | ask (number : Nat) (attempts : List Attempt)

namespace Deed

def lookup? : Deed → Option String
  | manager name _ | authorize name _ _ => some name
  | remove _ | ask _ _ => none

/-- The parts that were built, each with the number of its manager. -/
def built : Deed → List (Nat × Part)
  | authorize _ (.ok number) attempts | ask number attempts => (builtBy attempts).map (number, ·)
  | manager _ _ | authorize _ (.error _) _ | remove _ => []

end Deed

/-- A domain has been looked up and has not been dropped since. -/
def Current (past : List Deed) (name : String) : Prop :=
  ∃ before deed after, past = before ++ deed :: after ∧ deed.lookup? = some name ∧ ∀ later ∈ after, later ≠ .remove name

theorem current_append {past : List Deed} {deed : Deed} {name : String} :
    Current (past ++ [deed]) name ↔ deed.lookup? = some name ∨ deed ≠ .remove name ∧ Current past name :=
  since_append_singleton

namespace Domains

/-- The attempts that a question to the manager with a number makes. -/
def attempts (d : Domains) (number : Nat) (q : Question) (trail : Trail) : List Attempt :=
  match d.managers[number]? with
  | some m => q.attempts m trail
  | none => []

/-- The attempts that a request to a domain makes: those of the manager that looking up the domain gives. -/
def authorizeAttempts (d : Domains) (name : String) (lookup : AclLookup) (request : Request) (trail : Trail) :
    List Attempt :=
  match (manager name).result d trail with
  | .ok number => ((manager name).after d trail).attempts number (.authorize lookup request)
      ((manager name).left d trail)
  | .error _ => []

/-- The managers that one call after another can lead to, with what has been done. Whatever the stored lists are at each
time, and whatever else happens in between. -/
inductive Reaches (start : Domains) : List Deed → Domains → Prop
  | start : Reaches start [] start
  | manager {past : List Deed} {d : Domains} (name : String) (trail : Trail) : Reaches start past d →
      Reaches start (past ++ [.manager name ((manager name).result d trail)]) ((manager name).after d trail)
  | authorize {past : List Deed} {d : Domains} (name : String) (lookup : AclLookup) (request : Request)
      (trail : Trail) : Reaches start past d →
      Reaches start
        (past ++ [.authorize name ((Domains.manager name).result d trail)
          (d.authorizeAttempts name lookup request trail)])
        ((authorize name lookup request).after d trail)
  | remove {past : List Deed} {d : Domains} (name : String) : Reaches start past d →
      Reaches start (past ++ [.remove name]) (d.remove name).2
  | ask {past : List Deed} {d : Domains} (number : Nat) (q : Question) (trail : Trail) : Reaches start past d →
      Reaches start (past ++ [.ask number (d.attempts number q trail)]) ((withManager number q.put).after d trail)

def adding (d : Domains) (name : String) (m : Manager) : Domains :=
  { d with managers := d.managers ++ [m], cached := d.cached.insert name d.managers.length }

def replacing (d : Domains) (number : Nat) (m : Manager) : Domains := { d with managers := d.managers.set number m }

section Runs

variable (d : Domains) (trail : Trail)

theorem ofResult_bind_run {α β : Type} (result : Except Error α) (f : α → DomainsM β) :
    ((ofResult result >>= f).run.run d).run trail =
      match result with
      | .ok a => ((f a).run.run d).run trail
      | .error e => ((.error e, d), trail) := by
  cases result <;> rfl

theorem manager_run (name : String) :
    ((manager name).run.run d).run trail =
      match d.cached.get? name with
      | some number => ((.ok number, d), trail)
      | none =>
        match d.configuration.domain name with
        | .error e => ((.error e, d), trail)
        | .ok config =>
          match Manager.ofConfig config d.providers d.sink with
          | .error e => ((.error e, d), trail)
          | .ok m => ((.ok d.managers.length, d.adding name m), trail) := by
  have run : ((manager name).run.run d).run trail =
      ((match d.cached.get? name with
        | some number => pure number
        | none => do
          let config ← ofResult (d.configuration.domain name)
          let m ← ofResult (Manager.ofConfig config d.providers d.sink)
          let number := d.managers.length
          set { d with managers := d.managers ++ [m], cached := d.cached.insert name number }
          pure number : DomainsM Nat).run.run d).run trail := rfl
  rw [run]
  cases d.cached.get? name with
  | some number => rfl
  | none =>
    simp only [ofResult_bind_run]
    cases d.configuration.domain name with
    | error e => rfl
    | ok config =>
      simp only
      cases Manager.ofConfig config d.providers d.sink <;> rfl

/-- Looking up a domain leaves nothing on the trail: no factory is called. -/
theorem manager_left (name : String) : (manager name).left d trail = trail := by
  rw [DomainsM.left, manager_run]
  cases d.cached.get? name with
  | some number => rfl
  | none =>
    cases d.configuration.domain name with
    | error e => rfl
    | ok config =>
      simp only
      cases Manager.ofConfig config d.providers d.sink <;> rfl

theorem withManager_of_missing {α : Type} {number : Nat} (missing : d.managers[number]? = none) (step : ManagerM α) :
    ((withManager number step).run.run d).run trail =
      ((.error (.internal s!"no manager has the number {number}"), d), trail) := by
  unfold withManager
  rw [ExceptT.run_mk, StateT.run_bind, StateT.run_get, pure_bind]
  simp only [missing]
  rfl

theorem withManager_of_present {α : Type} {number : Nat} {m : Manager} (present : d.managers[number]? = some m)
    (step : ManagerM α) :
    ((withManager number step).run.run d).run trail =
      ((step.result m trail, d.replacing number (step.after m trail)), step.left m trail) := by
  unfold withManager
  rw [ExceptT.run_mk, StateT.run_bind, StateT.run_get, pure_bind]
  simp only [present]
  rfl

theorem authorize_run (name : String) (lookup : AclLookup) (request : Request) :
    ((authorize name lookup request).run.run d).run trail =
      match (manager name).result d trail with
      | .error e => ((.error e, (manager name).after d trail), (manager name).left d trail)
      | .ok number => ((withManager number (Manager.authorize lookup request)).run.run
          ((manager name).after d trail)).run ((manager name).left d trail) := by
  have run : ((authorize name lookup request).run.run d).run trail =
      ((ExceptT.bindCont (fun number => withManager number (Manager.authorize lookup request))
        ((manager name).result d trail)).run ((manager name).after d trail)).run ((manager name).left d trail) := rfl
  rw [run]
  cases (manager name).result d trail <;> rfl

end Runs

end Domains

end AccessControl
