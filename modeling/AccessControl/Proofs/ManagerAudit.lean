import AccessControl.Proofs.AuditTrail
import AccessControl.Proofs.TrustRun

namespace AccessControl

namespace Fallible

variable {α β : Type}

/-- The computation leaves the audit events as they are, whatever else it does. -/
def Quiet (x : Fallible α) : Prop := ∀ trail, (x.run trail).2.events = trail.events

theorem quiet_pure (a : α) : Quiet (pure a) := fun _ => rfl

theorem Quiet.bind {x : Fallible α} {f : α → Fallible β} (first : x.Quiet) (later : ∀ a, (f a).Quiet) :
    (x >>= f).Quiet := by
  intro trail
  rw [bind_run, ← first trail]
  cases (x.run trail).1 with
  | error e => rfl
  | ok a => exact later a (x.run trail).2

theorem quiet_mapM {ι : Type} {f : ι → Fallible α} {items : List ι} (each : ∀ i ∈ items, (f i).Quiet) :
    Quiet (items.mapM f) := by
  induction items with
  | nil => exact quiet_pure []
  | cons i rest ih =>
    obtain ⟨here, later⟩ := List.forall_mem_cons.mp each
    rw [List.mapM_cons]
    exact here.bind fun a => (ih later).bind fun others => quiet_pure (a :: others)

end Fallible

namespace Context

/-- The audit events about a request: one for each module that is asked, in order, and one for the answer. -/
def report (c : Context) (lookup : AclLookup) (request : Request) : List AuditEvent :=
  (match c.registry.results c.entries, c.settings.linkRoles request.resource with
    | .ok modules, .ok resource =>
      (c.consulted lookup { request with resource } modules).map fun s => c.moduleEvent resource s.1 s.2
    | _, _ => []) ++ [c.decisionEvent request (c.verdict lookup request)]

theorem Keeps.report_eq {fresh c : Context} (keeps : fresh.Keeps c) (lookup : AclLookup) (request : Request) :
    c.report lookup request = fresh.report lookup request := by
  simp only [report, consulted, outcomes, moduleEvent, decisionEvent, keeps.verdict_eq, keeps.domain, keeps.entries,
    keeps.settings, keeps.registry]

theorem asked_delivers (c : Context) (lookup : AclLookup) (request : Request) (trail : Trail)
    (steps : List (ModuleEntry × Module)) :
    (c.asked lookup request trail steps).events =
      (steps.map fun s => c.moduleEvent request.resource s.1 (s.2.answer lookup request)).foldl c.sink.deliver
        trail.events := by
  induction steps generalizing trail with
  | nil => rfl
  | cons step rest ih => exact ih _

theorem evaluate_delivers (c : Context) (lookup : AclLookup) (request : Request) (modules : List Module)
    (trail : Trail) :
    ((c.evaluate lookup request modules).run trail).2.events =
      ((c.consulted lookup request modules).map fun s => c.moduleEvent request.resource s.1 s.2).foldl c.sink.deliver
        trail.events := by
  rw [evaluate_run, asked_delivers, consulted, List.zip_map_right, ← List.map_take, List.map_map]
  rfl

/-- Answering a request delivers its report, whatever has been built before. -/
theorem Keeps.authorize_delivers {fresh c : Context} (keeps : fresh.Keeps c) (steady : fresh.Steady)
    (quiet : ∀ e ∈ fresh.entries, fresh.registry.Quiet e.moduleId e.options) (lookup : AclLookup) (request : Request)
    (trail : Trail) :
    ((c.authorize lookup request).run trail).2.events =
      (fresh.report lookup request).foldl fresh.sink.deliver trail.events := by
  obtain ⟨_, _, after⟩ := keeps.authorize steady lookup request trail
  have built : ((buildCells c.registry c.cells).run trail).2.events = trail.events := by
    refine buildCells_leaves Trail.events (fun cell member => ?_) trail
    rw [keeps.registry]
    refine quiet cell.entry ?_
    rw [← keeps.entries]
    exact List.mem_map_of_mem member
  rw [after, ← keeps.report_eq, ← keeps.verdict_eq, ← keeps.sink, report, List.foldl_append, ← built]
  refine congrArg (c.sink.deliver · (c.decisionEvent request (c.verdict lookup request))) ?_
  unfold judge
  cases c.registry.results c.entries with
  | error e => rfl
  | ok modules =>
    cases c.settings.linkRoles request.resource with
    | error e => rfl
    | ok resource => exact c.evaluate_delivers lookup { request with resource } modules _

end Context

namespace ManagerM

variable {α β : Type} {kind : Manager → Prop} {sink : AuditSink}

/-- Taken by any manager of a kind, the step delivers these events. -/
def Tells (kind : Manager → Prop) (sink : AuditSink) (x : ManagerM α) (told : List AuditEvent) : Prop :=
  ∀ m trail, kind m → (x.left m trail).events = told.foldl sink.deliver trail.events

theorem tells_ofResult (result : Except Error α) : Tells kind sink (ofResult result) [] := fun _ _ _ => rfl

theorem tells_ofFallible {x : Fallible α} {told : List AuditEvent}
    (delivers : ∀ trail, (x.run trail).2.events = told.foldl sink.deliver trail.events) :
    Tells kind sink (ofFallible x) told := fun _ trail _ => delivers trail

/-- The second step delivers nothing when the first fails. -/
theorem Tells.bind {p : Except Error β → Prop} {x : ManagerM β} {f : β → ManagerM α} {told more : List AuditEvent}
    (first : Tells kind sink x told) (yields : Yields kind x p) (failed : ∀ e, p (.error e) → more = [])
    (later : ∀ b, p (.ok b) → Tells kind sink (f b) more) : Tells kind sink (x >>= f) (told ++ more) := by
  intro m trail here
  obtain ⟨result, next⟩ := yields m trail here
  rw [left, bind_run, List.foldl_append, ← first m trail here]
  cases given : x.result m trail with
  | error e =>
    rw [failed e (given ▸ result)]
    rfl
  | ok b => exact later b (given ▸ result) _ _ next

theorem Tells.bind_quiet {p : Except Error β → Prop} {x : ManagerM β} {f : β → ManagerM α}
    (first : Tells kind sink x []) (yields : Yields kind x p) (later : ∀ b, Tells kind sink (f b) []) :
    Tells kind sink (x >>= f) [] :=
  first.bind yields (fun _ _ => rfl) fun b _ => later b

end ManagerM

namespace Manager

/-- No factory of the domain touches the audit events. -/
structure Quiet (m : Manager) : Prop where
  modules : ∀ e ∈ m.config.authorization, m.providers.modules.Quiet e.moduleId e.options
  roleMappers : ∀ e ∈ m.config.roleMapping, m.providers.roleMappers.Quiet e.providerId e.options
  principalMappers : ∀ e ∈ m.config.principalMapping, m.providers.principalMappers.Quiet e.providerId e.options
  trustModules : ∀ e ∈ m.config.trust, m.providers.trustModules.Quiet e.moduleId e.options

/-- The audit events about a request to a manager. A request that does not get as far as the chain leaves none. -/
def report (m : Manager) (lookup : AclLookup) (request : Request) : List AuditEvent :=
  match Context.ofConfig m.config m.providers.modules m.sink, m.mapped request with
  | .ok c, .ok request => c.report lookup request
  | _, _ => []

section Tells

variable {fresh : Manager}

theorem getContext_tells {sink : AuditSink} {kind : Manager → Prop} : ManagerM.Tells kind sink getContext [] := by
  intro m trail _
  rw [ManagerM.left, getContext_run]
  cases m.context with
  | some c => rfl
  | none => cases Context.ofConfig m.config m.providers.modules m.sink <;> rfl

theorem keepPart_left {α : Type} {build : Manager → Fallible α} {keep : α → Manager → Manager} {m : Manager}
    (quiet : (build m).Quiet) (trail : Trail) : ((keepPart build keep).left m trail).events = trail.events := by
  have built := quiet trail
  rw [ManagerM.left, keepPart_run, ManagerM.ofFallible_bind_run]
  rcases run : (build m).run trail with ⟨_ | _, _⟩
  · rw [run] at built
    exact built
  · rw [run] at built
    exact built

variable (quiet : fresh.Quiet)

include quiet

theorem getMapping_tells {sink : AuditSink} : ManagerM.Tells fresh.Keeps sink getMapping [] := by
  intro m trail keeps
  rw [ManagerM.left, getMapping_run]
  cases m.mapping with
  | some mapping => rfl
  | none =>
    refine keepPart_left ?_ trail
    rw [keeps.config, keeps.providers]
    refine (Fallible.quiet_mapM quiet.roleMappers).bind fun roles => ?_
    exact (Fallible.quiet_mapM quiet.principalMappers).bind fun principals => Fallible.quiet_pure _

theorem getTrust_tells {sink : AuditSink} : ManagerM.Tells fresh.Keeps sink getTrust [] := by
  intro m trail keeps
  rw [ManagerM.left, getTrust_run]
  cases m.trust with
  | some trust => rfl
  | none =>
    refine keepPart_left ?_ trail
    rw [keeps.config, keeps.providers]
    refine Fallible.Quiet.bind (Fallible.quiet_mapM fun e member => ?_) fun steps => Fallible.quiet_pure _
    exact Fallible.Quiet.bind (quiet.trustModules e member) fun module => Fallible.quiet_pure _

theorem isTrusted_tells {sink : AuditSink} (subject : Subject) :
    ManagerM.Tells fresh.Keeps sink (isTrusted subject) [] := by
  unfold isTrusted
  refine (getTrust_tells quiet).bind_quiet (getTrust_yields fresh) fun trust => ?_
  refine ManagerM.tells_ofFallible fun trail => ?_
  exact congrArg (·.2.events) (trust.judge_run subject trail)

variable (steady : fresh.Steady)

include steady

theorem mapRequest_tells {sink : AuditSink} (request : Request) :
    ManagerM.Tells fresh.Keeps sink (mapRequest request) [] := by
  unfold mapRequest
  refine (getMapping_tells quiet).bind_quiet (getMapping_yields steady) fun mapping => ?_
  refine (ManagerM.tells_ofResult _).bind_quiet (ManagerM.yields_ofResult rfl) fun subject => ?_
  refine (ManagerM.tells_ofResult _).bind_quiet (ManagerM.yields_ofResult rfl) fun roles => ?_
  exact ManagerM.tells_ofResult (.ok { request with subject, roles })

theorem subjectRoles_tells {sink : AuditSink} (subject : Subject) (roles : RoleGroup) :
    ManagerM.Tells fresh.Keeps sink (subjectRoles subject roles) [] := by
  unfold subjectRoles
  refine (getMapping_tells quiet).bind_quiet (getMapping_yields steady) fun mapping => ?_
  refine (ManagerM.tells_ofResult _).bind_quiet (ManagerM.yields_ofResult rfl) fun subject => ?_
  exact ManagerM.tells_ofResult _

theorem hasRole_tells {sink : AuditSink} (subject : Subject) (roles : RoleGroup) (roleName : String) :
    ManagerM.Tells fresh.Keeps sink (hasRole subject roles roleName) [] := by
  unfold hasRole
  refine (subjectRoles_tells quiet steady subject roles).bind_quiet (subjectRoles_yields steady subject roles) ?_
  exact fun held => ManagerM.tells_ofResult (.ok (held.holds roleName))

theorem isInRole_tells {sink : AuditSink} (subject : Subject) (roles : RoleGroup) (roleName : String)
    (refs : List RoleRef) : ManagerM.Tells fresh.Keeps sink (isInRole subject roles roleName refs) [] := by
  intro m trail keeps
  rw [ManagerM.left, isInRole_run]
  refine ManagerM.Tells.bind_quiet (ManagerM.tells_ofResult _) (ManagerM.yields_ofResult rfl) (fun link => ?_) m trail
    keeps
  exact hasRole_tells quiet steady subject roles (link.getD roleName)

/-- A manager delivers the report on a request that the configuration alone gives. -/
theorem authorize_tells (lookup : AclLookup) (request : Request) :
    ManagerM.Tells fresh.Keeps fresh.sink (authorize lookup request) (fresh.report lookup request) := by
  unfold authorize
  rw [← List.nil_append (fresh.report lookup request)]
  refine getContext_tells.bind (getContext_yields fresh) (fun e failed => ?_) fun c given => ?_
  · rw [report, failed.1 e rfl]
  obtain ⟨made, ofConfig, keeps⟩ := given.2 c rfl
  have entries := Context.ofConfig_entries ofConfig
  have parts : made.registry = fresh.providers.modules ∧ made.sink = fresh.sink := by
    obtain ⟨_, _, rfl⟩ := Context.ofConfig_eq_ok.mp ofConfig
    exact ⟨rfl, rfl⟩
  rw [← List.nil_append (fresh.report lookup request)]
  refine (mapRequest_tells quiet steady request).bind (mapRequest_yields steady request) (fun e failed => ?_)
    fun mapped given => ?_
  · rw [report, ofConfig, ← failed]
  rw [report, ofConfig, ← given]
  simp only
  have answers : ManagerM.Tells fresh.Keeps fresh.sink
      (ManagerM.ofFallible (ExceptT.lift (c.authorize lookup mapped))) (made.report lookup mapped) := by
    refine ManagerM.tells_ofFallible fun trail => ?_
    have delivers := keeps.authorize_delivers (steady.context ofConfig)
      (fun e member => parts.1 ▸ quiet.modules e (entries ▸ member)) lookup mapped trail
    rw [parts.2] at delivers
    exact delivers
  have yields : ManagerM.Yields fresh.Keeps (ManagerM.ofFallible (ExceptT.lift (c.authorize lookup mapped)))
      fun r => ∃ next, r = .ok (made.verdict lookup mapped, next) ∧ made.Keeps next := by
    refine ManagerM.yields_ofFallible fun trail => ?_
    obtain ⟨answer, next, _⟩ := keeps.authorize (steady.context ofConfig) lookup mapped trail
    exact ⟨_, congrArg Except.ok (Prod.ext answer rfl), next⟩
  rw [← List.append_nil (made.report lookup mapped)]
  refine answers.bind yields (fun _ _ => rfl) fun answered _ => ?_
  intro m trail keptBy
  rfl

end Tells

end Manager

end AccessControl
