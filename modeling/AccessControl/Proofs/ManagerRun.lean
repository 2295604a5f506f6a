import AccessControl.Manager
import AccessControl.Proofs.ContextRefinement

namespace AccessControl

/-- What building the mapping chains of a domain gives. -/
def Mapping.result (config : DomainConfig) (providers : Providers) : Except Error Mapping := do
  let roles ← config.roleMapping.mapM fun e => providers.roleMappers.result e.providerId e.options
  let principals ← config.principalMapping.mapM fun e => providers.principalMappers.result e.providerId e.options
  pure ⟨roles, principals⟩

namespace ManagerM

variable {α β : Type}

/-- What a step gives when a manager takes it. -/
def result (x : ManagerM α) (m : Manager) (trail : Trail) : Except Error α := ((x.run.run m).run trail).1.1

/-- What a manager is after a step. -/
def after (x : ManagerM α) (m : Manager) (trail : Trail) : Manager := ((x.run.run m).run trail).1.2

/-- What a step leaves on the trail when a manager takes it. -/
def left (x : ManagerM α) (m : Manager) (trail : Trail) : Trail := ((x.run.run m).run trail).2

theorem bind_run (x : ManagerM β) (f : β → ManagerM α) (m : Manager) (trail : Trail) :
    ((x >>= f).run.run m).run trail =
      match x.result m trail with
      | .ok b => ((f b).run.run (x.after m trail)).run (x.left m trail)
      | .error e => ((.error e, x.after m trail), x.left m trail) := by
  have run : ((x >>= f).run.run m).run trail =
      ((ExceptT.bindCont f (x.result m trail)).run (x.after m trail)).run (x.left m trail) := rfl
  rw [run]
  cases x.result m trail <;> rfl

/-- Taken by any manager of a kind, the step gives a result with this property and leaves a manager of that kind. -/
def Yields (kind : Manager → Prop) (x : ManagerM α) (p : Except Error α → Prop) : Prop :=
  ∀ m trail, kind m → p (x.result m trail) ∧ kind (x.after m trail)

theorem ofFallible_bind_run (x : Fallible α) (f : α → ManagerM β) (m : Manager) (trail : Trail) :
    ((ofFallible x >>= f).run.run m).run trail =
      match x.run trail with
      | (.ok a, after) => ((f a).run.run m).run after
      | (.error e, after) => ((.error e, m), after) := by
  have run : ((ofFallible x >>= f).run.run m).run trail =
      ((ExceptT.bindCont f (x.run trail).1).run m).run (x.run trail).2 := rfl
  rw [run]
  obtain ⟨result, after⟩ := x.run trail
  cases result <;> rfl

section Yields

variable {kind : Manager → Prop} {p q : Except Error α → Prop} {x : ManagerM α}

theorem Yields.mono (yields : Yields kind x p) (implies : ∀ r, p r → q r) : Yields kind x q :=
  fun m trail here => (yields m trail here).imp_left (implies _)

theorem yields_ofResult {r : Except Error α} (holds : p r) : Yields kind (ofResult r) p :=
  fun _ _ here => ⟨holds, here⟩

theorem yields_ofFallible {x : Fallible α} (holds : ∀ trail, p (x.run trail).1) : Yields kind (ofFallible x) p :=
  fun _ trail here => ⟨holds trail, here⟩

theorem yields_modify {p : Except Error PUnit → Prop} {change : Manager → Manager} (holds : p (.ok ⟨⟩))
    (kept : ∀ m, kind m → kind (change m)) : Yields kind (modify change) p :=
  fun m _ here => ⟨holds, kept m here⟩

/-- A failure of the first step is the failure of both. Otherwise the second goes on with the manager that the first
left behind. -/
theorem Yields.bind {p : Except Error β → Prop} {x : ManagerM β} {f : β → ManagerM α} (first : Yields kind x p)
    (failed : ∀ e, p (.error e) → q (.error e)) (later : ∀ b, p (.ok b) → Yields kind (f b) q) :
    Yields kind (x >>= f) q := by
  intro m trail here
  obtain ⟨result, next⟩ := first m trail here
  rw [ManagerM.result, ManagerM.after, bind_run]
  cases given : x.result m trail with
  | error e => exact ⟨failed e (given ▸ result), next⟩
  | ok b => exact later b (given ▸ result) _ _ next

theorem Yields.bind_eq {r : Except Error β} {g : β → Except Error α} {x : ManagerM β} {f : β → ManagerM α}
    (first : Yields kind x (· = r)) (later : ∀ b, Yields kind (f b) (· = g b)) :
    Yields kind (x >>= f) (· = r >>= g) := by
  refine first.bind (fun e failed => ?_) fun b given => ?_
  · rw [← failed]
    rfl
  · rw [← given]
    exact later b

end Yields

end ManagerM

namespace Manager

/-- The factories behind the answers of a manager always give the same. -/
structure Steady (m : Manager) : Prop where
  modules : ∀ e ∈ m.config.authorization, m.providers.modules.Steady e.moduleId e.options
  roleMappers : ∀ e ∈ m.config.roleMapping, m.providers.roleMappers.Steady e.providerId e.options
  principalMappers : ∀ e ∈ m.config.principalMapping, m.providers.principalMappers.Steady e.providerId e.options

/-- A request with its caller and then its roles mapped, as a value. -/
def mapped (m : Manager) (request : Request) : Except Error Request := do
  let mapping ← Mapping.result m.config m.providers
  let subject ← mapping.mapSubject request.subject
  let roles ← mapping.mapRoles subject request.roles
  pure { request with subject, roles }

/-- The answer of a manager to a request as a value. -/
def verdict (m : Manager) (lookup : AclLookup) (request : Request) : Except Error Decision := do
  let context ← Context.ofConfig m.config m.providers.modules m.sink
  let request ← m.mapped request
  context.verdict lookup request

/-- The roles that a subject holds after mapping, as a value. -/
def rolesOf (m : Manager) (subject : Subject) (roles : RoleGroup) : Except Error RoleGroup := do
  let mapping ← Mapping.result m.config m.providers
  let subject ← mapping.mapSubject subject
  mapping.mapRoles subject roles

/-- Whether a caller is in the role that a component calls by this name, as a value. -/
def inRole (m : Manager) (subject : Subject) (roles : RoleGroup) (roleName : String) (refs : List RoleRef) :
    Except Error Bool := do
  let link ← m.config.settings.resolveRoleRef refs roleName
  let roles ← m.rolesOf subject roles
  pure (roles.holds (link.getD roleName))

/-- A manager of the same domain, whose kept parts are what the factories give. -/
structure Keeps (fresh m : Manager) : Prop where
  config : m.config = fresh.config
  providers : m.providers = fresh.providers
  sink : m.sink = fresh.sink
  context : ∀ c, m.context = some c →
    ∃ made, Context.ofConfig fresh.config fresh.providers.modules fresh.sink = .ok made ∧ made.Keeps c
  mapping : ∀ mapping, m.mapping = some mapping → Mapping.result fresh.config fresh.providers = .ok mapping
  trust : ∀ trust, m.trust = some trust → ∃ trail,
    ((TrustContext.build fresh.config.name fresh.config.trust fresh.providers.trustModules).run trail).1 = .ok trust

theorem ofConfig_eq_ok {config : DomainConfig} {providers : Providers} {sink : AuditSink} {m : Manager} :
    ofConfig config providers sink = .ok m ↔
      config.validate = .ok () ∧ m = ⟨config, providers, sink, none, none, none⟩ := by
  unfold ofConfig
  rw [bind_eq_ok]
  constructor
  · rintro ⟨_, valid, same⟩
    exact ⟨valid, (Except.ok.inj same).symm⟩
  · rintro ⟨valid, rfl⟩
    exact ⟨(), valid, rfl⟩

theorem ofConfig_config {config : DomainConfig} {providers : Providers} {sink : AuditSink} {m : Manager}
    (made : ofConfig config providers sink = .ok m) : m.config = config := by
  obtain ⟨_, rfl⟩ := ofConfig_eq_ok.mp made
  rfl

theorem ofConfig_keeps {config : DomainConfig} {providers : Providers} {sink : AuditSink} {m : Manager}
    (made : ofConfig config providers sink = .ok m) : m.Keeps m := by
  obtain ⟨_, rfl⟩ := ofConfig_eq_ok.mp made
  exact ⟨rfl, rfl, rfl, nofun, nofun, nofun⟩

theorem getContext_run (m : Manager) (trail : Trail) :
    (getContext.run.run m).run trail =
      match m.context with
      | some c => ((.ok c, m), trail)
      | none =>
        match Context.ofConfig m.config m.providers.modules m.sink with
        | .ok c => ((.ok c, { m with context := some c }), trail)
        | .error e => ((.error e, m), trail) := by
  have run : (getContext.run.run m).run trail =
      ((match m.context with
        | some context => pure context
        | none => do
          let context ← ManagerM.ofResult (Context.ofConfig m.config m.providers.modules m.sink)
          set { m with context := some context }
          pure context : ManagerM Context).run.run m).run trail := rfl
  rw [run]
  cases m.context with
  | some c => rfl
  | none => cases Context.ofConfig m.config m.providers.modules m.sink <;> rfl

/-- A missing part is built and kept, unless building it fails. -/
def keepPart {α : Type} (build : Manager → Fallible α) (keep : α → Manager → Manager) : ManagerM α := do
  let m ← get
  let part ← ManagerM.ofFallible (build m)
  modify (keep part)
  pure part

theorem keepPart_run {α : Type} (build : Manager → Fallible α) (keep : α → Manager → Manager) (m : Manager)
    (trail : Trail) :
    ((keepPart build keep).run.run m).run trail =
      ((ManagerM.ofFallible (build m) >>= fun part => (do
        modify (keep part)
        pure part)).run.run m).run trail := rfl

theorem keepPart_yields {α : Type} {kind : Manager → Prop} {p : Except Error α → Prop} {build : Manager → Fallible α}
    {keep : α → Manager → Manager} {m : Manager} {trail : Trail} (here : kind m)
    (made : ∀ part, ((build m).run trail).1 = .ok part → p (.ok part) ∧ kind (keep part m))
    (failed : ∀ e, ((build m).run trail).1 = .error e → p (.error e)) :
    p ((keepPart build keep).result m trail) ∧ kind ((keepPart build keep).after m trail) := by
  rw [ManagerM.result, ManagerM.after, keepPart_run, ManagerM.ofFallible_bind_run]
  rcases run : (build m).run trail with ⟨_ | _, _⟩
  · exact ⟨failed _ (congrArg Prod.fst run), here⟩
  · exact made _ (congrArg Prod.fst run)

theorem getMapping_run (m : Manager) (trail : Trail) :
    (getMapping.run.run m).run trail =
      match m.mapping with
      | some mapping => ((.ok mapping, m), trail)
      | none => ((keepPart (fun m => Mapping.build m.config m.providers.roleMappers m.providers.principalMappers)
          fun mapping m => { m with mapping := some mapping }).run.run m).run trail := by
  have run : (getMapping.run.run m).run trail =
      ((match m.mapping with
        | some mapping => pure mapping
        | none => keepPart (fun m => Mapping.build m.config m.providers.roleMappers m.providers.principalMappers)
          fun mapping m => { m with mapping := some mapping } : ManagerM Mapping).run.run m).run trail := rfl
  rw [run]
  cases m.mapping <;> rfl

theorem getTrust_run (m : Manager) (trail : Trail) :
    (getTrust.run.run m).run trail =
      match m.trust with
      | some trust => ((.ok trust, m), trail)
      | none => ((keepPart (fun m => TrustContext.build m.config.name m.config.trust m.providers.trustModules)
          fun trust m => { m with trust := some trust }).run.run m).run trail := by
  have run : (getTrust.run.run m).run trail =
      ((match m.trust with
        | some trust => pure trust
        | none => keepPart (fun m => TrustContext.build m.config.name m.config.trust m.providers.trustModules)
          fun trust m => { m with trust := some trust } : ManagerM TrustContext).run.run m).run trail := rfl
  rw [run]
  cases m.trust <;> rfl

theorem isInRole_run (subject : Subject) (roles : RoleGroup) (roleName : String) (refs : List RoleRef) (m : Manager) :
    (isInRole subject roles roleName refs).run.run m =
      (ManagerM.ofResult (m.config.settings.resolveRoleRef refs roleName) >>= fun link =>
        hasRole subject roles (link.getD roleName)).run.run m := rfl

theorem Steady.context {m : Manager} (steady : m.Steady) {made : Context}
    (ofConfig : Context.ofConfig m.config m.providers.modules m.sink = .ok made) : made.Steady := by
  have entries := Context.ofConfig_entries ofConfig
  obtain ⟨_, _, rfl⟩ := Context.ofConfig_eq_ok.mp ofConfig
  exact fun e member => steady.modules e (entries ▸ member)

theorem mapping_gives {m : Manager} (steady : m.Steady) :
    Fallible.Gives (Mapping.build m.config m.providers.roleMappers m.providers.principalMappers)
      (Mapping.result m.config m.providers) := by
  unfold Mapping.build Mapping.result
  refine (Fallible.gives_mapM steady.roleMappers).bind fun roles => ?_
  refine (Fallible.gives_mapM steady.principalMappers).bind fun principals => ?_
  exact Fallible.gives_pure (Mapping.mk roles principals)

theorem getContext_yields (fresh : Manager) : ManagerM.Yields fresh.Keeps getContext fun r =>
    (∀ e, r = .error e → Context.ofConfig fresh.config fresh.providers.modules fresh.sink = .error e) ∧
      ∀ c, r = .ok c →
        ∃ made, Context.ofConfig fresh.config fresh.providers.modules fresh.sink = .ok made ∧ made.Keeps c := by
  intro m trail keeps
  rw [ManagerM.result, ManagerM.after, getContext_run, keeps.config, keeps.providers, keeps.sink]
  cases kept : m.context with
  | some c =>
    refine ⟨⟨nofun, ?_⟩, keeps⟩
    rintro _ ⟨⟩
    exact keeps.context c kept
  | none =>
    cases made : Context.ofConfig fresh.config fresh.providers.modules fresh.sink with
    | error e =>
      refine ⟨⟨?_, nofun⟩, keeps⟩
      rintro _ ⟨⟩
      rfl
    | ok c =>
      have keepsNew := Context.ofConfig_keeps made
      refine ⟨⟨nofun, ?_⟩, rfl, rfl, rfl, ?_, keeps.mapping, keeps.trust⟩
      · rintro _ ⟨⟩
        exact ⟨c, rfl, keepsNew⟩
      · rintro _ ⟨⟩
        exact ⟨c, made, keepsNew⟩

section Spec

variable {fresh : Manager} (steady : fresh.Steady)

include steady

theorem getMapping_yields :
    ManagerM.Yields fresh.Keeps getMapping (· = Mapping.result fresh.config fresh.providers) := by
  intro m trail keeps
  rw [ManagerM.result, ManagerM.after, getMapping_run]
  cases kept : m.mapping with
  | some mapping => exact ⟨(keeps.mapping mapping kept).symm, keeps⟩
  | none =>
    have gives := mapping_gives steady trail
    rw [← keeps.config, ← keeps.providers] at gives ⊢
    refine keepPart_yields (p := (· = Mapping.result m.config m.providers)) keeps (fun mapping made => ?_)
      fun e failed => failed.symm.trans gives
    refine ⟨made.symm.trans gives, keeps.config, keeps.providers, keeps.sink, keeps.context, ?_, keeps.trust⟩
    rintro _ ⟨⟩
    rw [← keeps.config, ← keeps.providers]
    exact gives.symm.trans made

theorem mapRequest_yields (request : Request) :
    ManagerM.Yields fresh.Keeps (mapRequest request) (· = fresh.mapped request) := by
  unfold mapRequest mapped
  refine (getMapping_yields steady).bind_eq fun mapping => ?_
  refine (ManagerM.yields_ofResult rfl).bind_eq fun subject => ?_
  refine (ManagerM.yields_ofResult rfl).bind_eq fun roles => ?_
  exact ManagerM.yields_ofResult (r := .ok { request with subject, roles }) rfl

theorem subjectRoles_yields (subject : Subject) (roles : RoleGroup) :
    ManagerM.Yields fresh.Keeps (subjectRoles subject roles) (· = fresh.rolesOf subject roles) := by
  unfold subjectRoles rolesOf
  refine (getMapping_yields steady).bind_eq fun mapping => ?_
  refine (ManagerM.yields_ofResult rfl).bind_eq fun subject => ?_
  exact ManagerM.yields_ofResult rfl

theorem hasRole_yields (subject : Subject) (roles : RoleGroup) (roleName : String) :
    ManagerM.Yields fresh.Keeps (hasRole subject roles roleName)
      (· = (do pure ((← fresh.rolesOf subject roles).holds roleName))) := by
  unfold hasRole
  refine (subjectRoles_yields steady subject roles).bind_eq fun held => ?_
  exact ManagerM.yields_ofResult (r := .ok (held.holds roleName)) rfl

/-- Answering a request keeps the manager, and the answer is the value that the configuration alone gives. -/
theorem authorize_yields (lookup : AclLookup) (request : Request) :
    ManagerM.Yields fresh.Keeps (authorize lookup request) (· = fresh.verdict lookup request) := by
  unfold authorize verdict
  refine (getContext_yields fresh).bind (fun e failed => ?_) fun c given => ?_
  · rw [failed.1 e rfl]
    rfl
  obtain ⟨made, ofConfig, keeps⟩ := given.2 c rfl
  rw [ofConfig]
  refine (mapRequest_yields steady request).bind_eq fun request => ?_
  have answers : ManagerM.Yields fresh.Keeps (ManagerM.ofFallible (ExceptT.lift (c.authorize lookup request)))
      fun r => ∃ next, r = .ok (made.verdict lookup request, next) ∧ made.Keeps next := by
    refine ManagerM.yields_ofFallible fun trail => ?_
    obtain ⟨answer, next, _⟩ := keeps.authorize (steady.context ofConfig) lookup request trail
    exact ⟨_, congrArg Except.ok (Prod.ext answer rfl), next⟩
  refine answers.bind (fun e failed => ?_) fun answered given => ?_
  · obtain ⟨_, impossible, _⟩ := failed
    cases impossible
  obtain ⟨next, same, keepsNext⟩ := given
  cases same
  refine (ManagerM.yields_modify (p := (· = .ok ⟨⟩)) rfl fun m keptBy => ?_).bind nofun fun _ _ => ?_
  · refine ⟨keptBy.config, keptBy.providers, keptBy.sink, ?_, keptBy.mapping, keptBy.trust⟩
    rintro _ ⟨⟩
    exact ⟨made, ofConfig, keepsNext⟩
  · exact ManagerM.yields_ofResult rfl

theorem isInRole_yields (subject : Subject) (roles : RoleGroup) (roleName : String) (refs : List RoleRef) :
    ManagerM.Yields fresh.Keeps (isInRole subject roles roleName refs)
      (· = fresh.inRole subject roles roleName refs) := by
  intro m trail keeps
  rw [ManagerM.result, ManagerM.after, isInRole_run, keeps.config]
  refine ManagerM.Yields.bind_eq (ManagerM.yields_ofResult rfl) (fun link => ?_) m trail keeps
  exact hasRole_yields steady subject roles (link.getD roleName)

end Spec

theorem getTrust_yields (fresh : Manager) : ManagerM.Yields fresh.Keeps getTrust fun _ => True := by
  intro m trail keeps
  rw [ManagerM.result, ManagerM.after, getTrust_run]
  cases m.trust with
  | some trust => exact ⟨trivial, keeps⟩
  | none =>
    refine keepPart_yields (p := fun _ => True) keeps (fun trust made => ⟨trivial, ?_⟩) fun _ _ => trivial
    refine ⟨keeps.config, keeps.providers, keeps.sink, keeps.context, keeps.mapping, ?_⟩
    rintro _ ⟨⟩
    rw [← keeps.config, ← keeps.providers]
    exact ⟨trail, made⟩

theorem isTrusted_yields (fresh : Manager) (subject : Subject) :
    ManagerM.Yields fresh.Keeps (isTrusted subject) fun _ => True := by
  unfold isTrusted
  refine (getTrust_yields fresh).bind (fun _ _ => trivial) fun trust _ => ?_
  exact ManagerM.yields_ofFallible fun _ => trivial

/-- What a manager can be asked. -/
inductive Operation : {α : Type} → ManagerM α → Prop
  | authorize (lookup : AclLookup) (request : Request) : Operation (Manager.authorize lookup request)
  | subjectRoles (subject : Subject) (roles : RoleGroup) : Operation (Manager.subjectRoles subject roles)
  | hasRole (subject : Subject) (roles : RoleGroup) (roleName : String) :
      Operation (Manager.hasRole subject roles roleName)
  | isInRole (subject : Subject) (roles : RoleGroup) (roleName : String) (refs : List RoleRef) :
      Operation (Manager.isInRole subject roles roleName refs)
  | isTrusted (subject : Subject) : Operation (Manager.isTrusted subject)

/-- The managers that asking one question after another can lead to, whatever the stored lists are at each time and
whatever else happens in between. -/
inductive Reaches (fresh : Manager) : Manager → Prop
  | start : Reaches fresh fresh
  | next {m : Manager} {α : Type} {operation : ManagerM α} (asked : Operation operation) (trail : Trail) :
      Reaches fresh m → Reaches fresh (operation.after m trail)

theorem Operation.yields {fresh : Manager} (steady : fresh.Steady) {α : Type} {operation : ManagerM α}
    (asked : Operation operation) : ManagerM.Yields fresh.Keeps operation fun _ => True := by
  cases asked with
  | authorize lookup request => exact (authorize_yields steady lookup request).mono fun _ _ => trivial
  | subjectRoles subject roles => exact (subjectRoles_yields steady subject roles).mono fun _ _ => trivial
  | hasRole subject roles roleName => exact (hasRole_yields steady subject roles roleName).mono fun _ _ => trivial
  | isInRole subject roles roleName refs =>
    exact (isInRole_yields steady subject roles roleName refs).mono fun _ _ => trivial
  | isTrusted subject => exact isTrusted_yields fresh subject

theorem Reaches.keeps {fresh m : Manager} (reach : fresh.Reaches m) (steady : fresh.Steady)
    (start : fresh.Keeps fresh) : fresh.Keeps m := by
  induction reach with
  | start => exact start
  | next asked trail _ ih => exact (asked.yields steady _ trail ih).2

end Manager

end AccessControl
