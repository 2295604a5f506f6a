import AccessControl.Proofs.StandardDomain

namespace AccessControl

/-- A module that answers the calls of beans by the policy for them. -/
def Module.ForBeans (module : Module) : Prop :=
  ∃ policy : BeanPolicy, ∀ lookup id call attributes subject roles,
    module.answer lookup ⟨⟨id, .ejb call, attributes⟩, subject, roles⟩ = policy.decide call roles

/-- A module that answers web requests by the policy for them. -/
def Module.ForWeb (module : Module) : Prop :=
  ∀ lookup id request attributes subject roles,
    module.answer lookup ⟨⟨id, .web request, attributes⟩, subject, roles⟩ = request.decide roles

theorem forBeans_toModule (policy : BeanPolicy) : policy.toModule.ForBeans := ⟨policy, fun _ _ _ _ _ _ => rfl⟩

theorem forBeans_delegating (bean : BeanPolicy) (acl : Option AclPolicy) : (delegatingModule bean acl).ForBeans :=
  ⟨bean, fun _ _ _ _ _ _ => rfl⟩

theorem forWeb_webModule : webModule.ForWeb := fun _ _ _ _ _ _ => rfl

theorem forWeb_delegating (bean : BeanPolicy) (acl : Option AclPolicy) : (delegatingModule bean acl).ForWeb :=
  fun _ _ _ _ _ _ => rfl

theorem BeanPolicy.decide_of_check (policy : BeanPolicy) {call : BeanCall} {check : RoleCheck}
    (asks : call.roleCheck = some check) (roles : RoleGroup) :
    policy.decide call roles = .permitIf (roles.holds check.effectiveRole) := by
  rw [decide, asks]

theorem BeanPolicy.decide_of_link (policy : BeanPolicy) {call : BeanCall} {check : RoleCheck}
    (asks : call.roleCheck = some check) (link : String) (roles : RoleGroup) :
    policy.decide { call with roleCheck := call.roleCheck.map fun c => { c with linkedRole := some link } } roles =
      .permitIf (roles.holds link) := by
  rw [asks]
  rfl

theorem WebRequest.decide_of_check {request : WebRequest} {check : RoleCheck} (asks : request.roleCheck = some check)
    (roles : RoleGroup) : request.decide roles = .permitIf (roles.holds check.effectiveRole) := by
  rw [decide, asks]

theorem WebRequest.decide_of_link {request : WebRequest} {check : RoleCheck} (asks : request.roleCheck = some check)
    (link : String) (roles : RoleGroup) :
    ({ request with
      roleCheck := request.roleCheck.map fun c => { c with linkedRole := some link } } : WebRequest).decide roles =
      .permitIf (roles.holds link) := by
  rw [asks]
  rfl

/-- A method that asks for one role alone is open to those who hold it. -/
theorem BeanPolicy.decide_of_role (policy : BeanPolicy) {call : BeanCall} (unasked : call.roleCheck = none)
    (included : call.excluded = false) (restricted : call.unchecked = false) {role : SimpleRole}
    (only : call.methodRoles.leaves = [role]) (roles : RoleGroup) :
    policy.decide call roles = .permitIf (roles.holds role.name) := by
  have listed : call.methodRoles.isEmpty = false := by
    unfold RoleGroup.isEmpty
    cases members : call.methodRoles.members with
    | cons member rest => rfl
    | nil =>
      rw [RoleGroup.leaves, RoleGroup.toRole, Role.leaves, members, Role.leavesOf] at only
      cases only
  rw [decide, unasked, included, restricted, listed, RoleGroup.holdsAny, only]
  simp [RoleGroup.holdsSimple_eq_holds]

namespace Providers.Standard

variable {library : Providers} (standard : library.Standard)

include standard

theorem delegating {options : Options} {module : Module}
    (built : library.modules.result "delegating" options = .ok module) :
    ∃ bean acl, module = delegatingModule bean acl := by
  rcases standard.create_delegating options with created | created
  · rw [(Registry.silent_of_create created).2] at built
    obtain ⟨bean, _, rfl⟩ := map_eq_ok.mp built
    exact ⟨bean, none, rfl⟩
  · rw [(Registry.silent_of_create created).2] at built
    obtain ⟨bean, _, built⟩ := bind_eq_ok.mp built
    obtain ⟨acl, _, same⟩ := bind_eq_ok.mp built
    cases same
    exact ⟨bean, some acl, rfl⟩

theorem forBeans {id : String} (layer : id = "ejb" ∨ id = "delegating") {options : Options} {module : Module}
    (built : library.modules.result id options = .ok module) : module.ForBeans := by
  rcases layer with rfl | rfl
  · rw [(Registry.silent_of_create (standard.create_ejb options)).2] at built
    obtain ⟨policy, _, rfl⟩ := map_eq_ok.mp built
    exact forBeans_toModule policy
  · obtain ⟨bean, acl, rfl⟩ := standard.delegating built
    exact forBeans_delegating bean acl

theorem forWeb {id : String} (layer : id = "web" ∨ id = "delegating") {options : Options} {module : Module}
    (built : library.modules.result id options = .ok module) : module.ForWeb := by
  rcases layer with rfl | rfl
  · rw [(Registry.silent_of_create (standard.create_web options)).2] at built
    cases built
    exact forWeb_webModule
  · obtain ⟨bean, acl, rfl⟩ := standard.delegating built
    exact forWeb_delegating bean acl

end Providers.Standard

theorem aggregate_permitIf (flag : ControlFlag) (permitted : Bool) :
    (aggregate [(flag, .permitIf permitted)]).decidingError = none ∧
      ∀ fallback, (aggregate [(flag, .permitIf permitted)]).decision.orElse fallback = .ofBool permitted := by
  cases flag <;> cases permitted <;> exact ⟨rfl, fun _ => rfl⟩

/-- A chain of one module that only permits or refuses answers what the module does, whatever its flag is. -/
theorem Context.verdict_single {c : Context} {entry : ModuleEntry} (single : c.entries = [entry]) {module : Module}
    (built : c.registry.result entry.moduleId entry.options = .ok module) {lookup : AclLookup} {request : Request}
    {resource : Resource} (linked : c.settings.linkRoles request.resource = .ok resource) {permitted : Bool}
    (answers : module.answer lookup { request with resource } = .permitIf permitted) :
    c.verdict lookup request = .ok (.ofBool permitted) := by
  have results : c.registry.results c.entries = .ok [module] := single ▸ Registry.results_single built
  have outcomes : c.outcomes lookup { request with resource } [module] = [(entry.flag, .permitIf permitted)] := by
    rw [Context.outcomes, single]
    simp only [List.zip_cons_cons, List.zip_nil_right, List.map_cons, List.map_nil, answers]
  obtain ⟨undecided, decision⟩ := aggregate_permitIf entry.flag permitted
  unfold verdict
  simp only [results, linked, outcomes, bind, Except.bind]
  rw [conclude_of_none undecided, decision]

theorem Context.verdict_rejected {c : Context} {entry : ModuleEntry} (single : c.entries = [entry]) {module : Module}
    (built : c.registry.result entry.moduleId entry.options = .ok module) {lookup : AclLookup} {request : Request}
    {e : Error} (rejected : c.settings.linkRoles request.resource = .error e) :
    c.verdict lookup request = .error e := by
  have results : c.registry.results c.entries = .ok [module] := single ▸ Registry.results_single built
  unfold verdict
  simp only [results, rejected, bind, Except.bind]

/-- A yes-or-no answer and a decision that say the same. Where one of them is an error both are, and then the
configuration is at fault. -/
structure AgreesWith (held : Except Error Bool) (decision : Except Error Decision) : Prop where
  yes : held = .ok true ↔ decision = .ok .permit
  no : held = .ok false ↔ decision = .ok .deny
  failed : (∃ e, held = .error e) ↔ ∃ e, decision = .error e
  heldKind : FailsOnly .configuration held
  decisionKind : FailsOnly .configuration decision

theorem agreesWith_ok (held : Bool) : AgreesWith (.ok held) (.ok (.ofBool held)) := by
  cases held with
  | true => exact ⟨⟨fun _ => rfl, fun _ => rfl⟩, ⟨nofun, nofun⟩, ⟨nofun, nofun⟩, failsOnly_ok _, failsOnly_ok _⟩
  | false => exact ⟨⟨nofun, nofun⟩, ⟨fun _ => rfl, fun _ => rfl⟩, ⟨nofun, nofun⟩, failsOnly_ok _, failsOnly_ok _⟩

theorem agreesWith_error {e e' : Error} (here : e.kind = .configuration) (there : e'.kind = .configuration) :
    AgreesWith (.error e) (.error e') :=
  ⟨⟨nofun, nofun⟩, ⟨nofun, nofun⟩, ⟨fun _ => ⟨e', rfl⟩, fun _ => ⟨e, rfl⟩⟩, failsOnly_error here, failsOnly_error there⟩

namespace Manager

section Questions

variable {config : DomainConfig} {providers library : Providers} {sink : AuditSink}
  (draws : config.Draws providers library) (standard : library.Standard) {m : Manager}
  (made : ofConfig config providers sink = .ok m)

include draws standard made

/-- Requests and questions about roles are mapped alike, or mapping fails for both. -/
theorem mapped_cases (subject : Subject) (roles : RoleGroup) :
    (∃ e, e.kind = .configuration ∧ m.rolesOf subject roles = .error e ∧
      ∀ resource, m.mapped ⟨resource, subject, roles⟩ = .error e) ∨
    ∃ mappedSubject mappedRoles, m.rolesOf subject roles = .ok mappedRoles ∧
      ∀ resource, m.mapped ⟨resource, subject, roles⟩ = .ok ⟨resource, mappedSubject, mappedRoles⟩ := by
  obtain ⟨_, rfl⟩ := ofConfig_eq_ok.mp made
  unfold rolesOf mapped
  cases built : Mapping.result config providers with
  | error e => exact .inl ⟨e, draws.failsOnly_mapping standard e built, rfl, fun _ => rfl⟩
  | ok mapping =>
    obtain ⟨roleMappers, principalMappers⟩ := draws.tabled standard built
    obtain ⟨mappedSubject, subjectRun⟩ := mapping.mapSubject_total
      (fun mapper member => (principalMappers mapper member).total) subject
    obtain ⟨mappedRoles, _, rolesRun, _⟩ := mapping.mapRoles_widening
      (fun mapper member => (roleMappers mapper member).widening) mappedSubject (g := roles) fun _ leaf => leaf
    refine .inr ⟨mappedSubject, mappedRoles, ?_, fun resource => ?_⟩
    · simp only [subjectRun, rolesRun, bind, Except.bind]
    · simp only [subjectRun, rolesRun, bind, Except.bind]
      rfl

variable {entry : ModuleEntry} (single : config.authorization = [entry]) {module : Module}
  (valid : providers.modules.result entry.moduleId entry.options = .ok module)

include single valid

omit draws standard in
theorem verdict_of_single_chain : ∃ c : Context, c.entries = [entry] ∧ c.settings = config.settings ∧
    c.registry = providers.modules ∧
      ∀ lookup request, m.verdict lookup request = m.mapped request >>= c.verdict lookup := by
  obtain ⟨validates, rfl⟩ := ofConfig_eq_ok.mp made
  have known : ∀ e ∈ config.authorization, providers.modules.contains e.moduleId = true := by
    rw [single]
    exact List.forall_mem_singleton.mpr (Registry.contains_of_result valid)
  have built : Context.ofConfig config providers.modules sink = .ok _ :=
    Context.ofConfig_eq_ok.mpr ⟨validates, known, rfl⟩
  refine ⟨_, (Context.ofConfig_entries built).trans single, rfl, rfl, fun lookup request => ?_⟩
  simp only [verdict, built]
  rfl

/-- The question whether a caller is in a role and the request that carries this check are answered alike. -/
theorem inRole_agrees {lookup : AclLookup} {roleName : String} {refs : List RoleRef} {resource : Resource}
    (asks : resource.roleCheck? = some (⟨roleName, none⟩, refs))
    (answers : ∀ (link : Option String) (mappedSubject : Subject) (mappedRoles : RoleGroup),
      module.answer lookup ⟨link.elim resource resource.linkRole, mappedSubject, mappedRoles⟩ =
        .permitIf (mappedRoles.holds (link.getD roleName))) (subject : Subject) (roles : RoleGroup) :
    AgreesWith (m.inRole subject roles roleName refs) (m.verdict lookup ⟨resource, subject, roles⟩) := by
  obtain ⟨c, entries, settings, registry, verdict⟩ := verdict_of_single_chain made single valid
  have links := c.settings.linkRoles_of_check asks
  rw [verdict, inRole, ofConfig_config made, ← settings]
  rcases mapped_cases draws standard made subject roles with
    ⟨e, kind, rolesRun, mappedRun⟩ | ⟨mappedSubject, mappedRoles, rolesRun, mappedRun⟩
  · rw [mappedRun, rolesRun]
    cases resolved : c.settings.resolveRoleRef refs roleName with
    | error e' => exact agreesWith_error (Settings.resolveRoleRef_error_kind resolved) kind
    | ok link => exact agreesWith_error kind kind
  · rw [mappedRun, rolesRun]
    rw [← registry] at valid
    cases resolved : c.settings.resolveRoleRef refs roleName with
    | error e =>
      have kind := Settings.resolveRoleRef_error_kind resolved
      rw [resolved] at links
      have rejected : c.verdict lookup ⟨resource, mappedSubject, mappedRoles⟩ = .error e :=
        Context.verdict_rejected entries valid links
      change AgreesWith (.error e) (c.verdict lookup ⟨resource, mappedSubject, mappedRoles⟩)
      rw [rejected]
      exact agreesWith_error kind kind
    | ok link =>
      rw [resolved] at links
      have answered : c.verdict lookup ⟨resource, mappedSubject, mappedRoles⟩ =
          .ok (.ofBool (mappedRoles.holds (link.getD roleName))) :=
        Context.verdict_single entries valid links (answers link mappedSubject mappedRoles)
      change AgreesWith (.ok (mappedRoles.holds (link.getD roleName)))
        (c.verdict lookup ⟨resource, mappedSubject, mappedRoles⟩)
      rw [answered]
      exact agreesWith_ok _

/-- The question whether a role is held and a request that asks for nothing else are answered alike. -/
theorem hasRole_agrees {lookup : AclLookup} {roleName : String} {resource : Resource}
    (unchecked : resource.roleCheck? = none)
    (answers : ∀ (mappedSubject : Subject) (mappedRoles : RoleGroup),
      module.answer lookup ⟨resource, mappedSubject, mappedRoles⟩ = .permitIf (mappedRoles.holds roleName))
    (subject : Subject) (roles : RoleGroup) :
    AgreesWith (do pure ((← m.rolesOf subject roles).holds roleName))
      (m.verdict lookup ⟨resource, subject, roles⟩) := by
  obtain ⟨c, entries, settings, registry, verdict⟩ := verdict_of_single_chain made single valid
  have links : c.settings.linkRoles resource = .ok resource := by
    rw [Settings.linkRoles, unchecked]
  rw [verdict]
  rcases mapped_cases draws standard made subject roles with
    ⟨e, kind, rolesRun, mappedRun⟩ | ⟨mappedSubject, mappedRoles, rolesRun, mappedRun⟩
  · rw [mappedRun, rolesRun]
    exact agreesWith_error kind kind
  · rw [mappedRun, rolesRun]
    rw [← registry] at valid
    have answered : c.verdict lookup ⟨resource, mappedSubject, mappedRoles⟩ =
        .ok (.ofBool (mappedRoles.holds roleName)) :=
      Context.verdict_single entries valid links (answers mappedSubject mappedRoles)
    change AgreesWith (.ok (mappedRoles.holds roleName)) (c.verdict lookup ⟨resource, mappedSubject, mappedRoles⟩)
    rw [answered]
    exact agreesWith_ok _

end Questions

/-- The three ways of asking for a role say the same in a domain of one module of the library, whatever its flag is and
whatever the managers were asked before. A call or a web request with an unresolved check for a role is answered as the
question whether the caller is in that role by the same references, and a method that asks for one role alone is
answered as the question whether that role is held. Failing answers are configuration errors. -/
theorem role_questions_agree {config : DomainConfig} {providers library : Providers} {sink : AuditSink}
    (standard : library.Standard) (draws : config.Draws providers library) {fresh m m' : Manager}
    (made : ofConfig config providers sink = .ok fresh) (reach : fresh.Reaches m) (reach' : fresh.Reaches m')
    {entry : ModuleEntry} (single : config.authorization = [entry]) {module : Module}
    (valid : providers.modules.result entry.moduleId entry.options = .ok module) (lookup : AclLookup)
    (subject : Subject) (roles : RoleGroup) (roleName : String) (trail trail' : Trail) (id : ResourceId)
    (attributes : SortedMap String String) :
    (∀ call : BeanCall, entry.moduleId = "ejb" ∨ entry.moduleId = "delegating" →
      call.roleCheck = some ⟨roleName, none⟩ →
      AgreesWith ((isInRole subject roles roleName call.roleRefs).result m trail)
        ((authorize lookup ⟨⟨id, .ejb call, attributes⟩, subject, roles⟩).result m' trail')) ∧
    (∀ request : WebRequest, entry.moduleId = "web" ∨ entry.moduleId = "delegating" →
      request.roleCheck = some ⟨roleName, none⟩ →
      AgreesWith ((isInRole subject roles roleName request.roleRefs).result m trail)
        ((authorize lookup ⟨⟨id, .web request, attributes⟩, subject, roles⟩).result m' trail')) ∧
    (∀ (call : BeanCall) (parent : Option String), entry.moduleId = "ejb" ∨ entry.moduleId = "delegating" →
      call.roleCheck = none → call.excluded = false → call.unchecked = false →
      call.methodRoles.leaves = [⟨roleName, parent⟩] →
      AgreesWith ((hasRole subject roles roleName).result m trail)
        ((authorize lookup ⟨⟨id, .ejb call, attributes⟩, subject, roles⟩).result m' trail')) := by
  have steady := draws.steady standard made
  have start := ofConfig_keeps made
  have keeps := reach.keeps steady start
  have keeps' := reach'.keeps steady start
  have member : entry ∈ config.authorization := single ▸ List.mem_cons_self
  have built : library.modules.result entry.moduleId entry.options = .ok module := by
    rw [← valid, Registry.result, Registry.result, draws.modules entry member]
  refine ⟨fun call layer asks => ?_, fun request layer asks => ?_,
    fun call parent layer asks shown restricted only => ?_⟩
  · obtain ⟨policy, answers⟩ := standard.forBeans layer built
    rw [(isInRole_yields steady _ _ _ _ m trail keeps).1, (authorize_yields steady _ _ m' trail' keeps').1]
    refine inRole_agrees draws standard made single valid ?_ (fun link mappedSubject mappedRoles => ?_) subject roles
    · simp only [Resource.roleCheck?, Detail.roleCheck?, asks, Option.map_some]
    · cases link with
      | none => exact (answers ..).trans (BeanPolicy.decide_of_check policy asks mappedRoles)
      | some link => exact (answers ..).trans (BeanPolicy.decide_of_link policy asks link mappedRoles)
  · have answers := standard.forWeb layer built
    rw [(isInRole_yields steady _ _ _ _ m trail keeps).1, (authorize_yields steady _ _ m' trail' keeps').1]
    refine inRole_agrees draws standard made single valid ?_ (fun link mappedSubject mappedRoles => ?_) subject roles
    · simp only [Resource.roleCheck?, Detail.roleCheck?, asks, Option.map_some]
    · cases link with
      | none => exact (answers ..).trans (WebRequest.decide_of_check asks mappedRoles)
      | some link => exact (answers ..).trans (WebRequest.decide_of_link asks link mappedRoles)
  · obtain ⟨policy, answers⟩ := standard.forBeans layer built
    rw [(hasRole_yields steady _ _ _ m trail keeps).1, (authorize_yields steady _ _ m' trail' keeps').1]
    refine hasRole_agrees draws standard made single valid ?_ (fun mappedSubject mappedRoles => ?_) subject roles
    · simp only [Resource.roleCheck?, Detail.roleCheck?, asks, Option.map_none]
    · exact (answers ..).trans (BeanPolicy.decide_of_role policy asks shown restricted only mappedRoles)

/-- A reference links the name that a component uses to a declared role, which the caller holds. The component's own
question, a web request and a bean call with that check, and a method that asks for the role are all answered yes. -/
theorem role_questions_agree_linked :
    let config := { (DomainConfig.ofName "ledger").withModule (.plain "delegating" .optional) with
      settings := ⟨.deny, true, .ofElements ["auditor"]⟩ }
    let subject := Subject.ofCaller ⟨"ann"⟩
    let roles := RoleGroup.ofNames "Roles" ["auditor"]
    let refs : List RoleRef := [⟨"reviewer", "auditor", none⟩]
    let lookup := AclStore.unavailable.lookup
    let call := { BeanCall.ofBean "Ledger" with roleCheck := some ⟨"reviewer", none⟩, roleRefs := refs }
    let web := { WebRequest.ofMethod "GET" "/ledger" with roleCheck := some ⟨"reviewer", none⟩, roleRefs := refs }
    let method := { BeanCall.ofBean "Ledger" with methodRoles := .ofNames "MethodRoles" ["auditor"] }
    let request := fun detail => (⟨⟨⟨.ejb, "Ledger"⟩, detail, .empty⟩, subject, roles⟩ : Request)
    ∃ fresh, ofConfig config Providers.builtin.withAcl .keep = .ok fresh ∧
      (isInRole subject roles "reviewer" refs).result fresh .empty = .ok true ∧
      (authorize lookup (request (.ejb call))).result fresh .empty = .ok .permit ∧
      (authorize lookup (request (.web web))).result fresh .empty = .ok .permit ∧
      (hasRole subject roles "auditor").result fresh .empty = .ok true ∧
      (authorize lookup (request (.ejb method))).result fresh .empty = .ok .permit := by
  intro config subject roles refs lookup call web method request
  have made : ofConfig config Providers.builtin.withAcl .keep =
      .ok ⟨config, Providers.builtin.withAcl, .keep, none, none, none⟩ := ofConfig_eq_ok.mpr ⟨by decide, rfl⟩
  have valid : Providers.builtin.withAcl.modules.result "delegating" .empty =
      .ok (delegatingModule ⟨false⟩ (some ⟨true⟩)) :=
    (Registry.silent_of_create (Providers.withAcl_create "delegating" .empty)).2
  have agree := fun roleName => role_questions_agree .full ⟨fun _ _ => rfl, fun _ _ => rfl, fun _ _ => rfl⟩ made .start
    .start rfl valid lookup subject roles roleName .empty .empty ⟨.ejb, "Ledger"⟩ .empty
  have inRole : (isInRole subject roles "reviewer" refs).result
      ⟨config, Providers.builtin.withAcl, .keep, none, none, none⟩ .empty = .ok true := by decide +kernel
  have holds : (hasRole subject roles "auditor").result
      ⟨config, Providers.builtin.withAcl, .keep, none, none, none⟩ .empty = .ok true := by decide +kernel
  refine ⟨_, made, inRole, ?_, ?_, holds, ?_⟩
  · exact ((agree "reviewer").1 call (.inr rfl) rfl).yes.mp inRole
  · exact ((agree "reviewer").2.1 web (.inr rfl) rfl).yes.mp inRole
  · exact ((agree "auditor").2.2 method none (.inr rfl) rfl rfl rfl rfl).yes.mp holds

end Manager

end AccessControl
