import AccessControl.Proofs.LayerView
import AccessControl.Proofs.RoleSets

namespace AccessControl

/-- The same caller, if any, and the same other principals. Their order, their repetitions and the credentials do not
count. -/
structure Subject.SameIdentity (a b : Subject) : Prop where
  caller : a.caller = b.caller
  others : ∀ p, p ∈ a.principals.tail ↔ p ∈ b.principals.tail

namespace Subject

theorem mem_principals_iff {s : Subject} {p : Principal} :
    p ∈ s.principals ↔ s.caller = some p ∨ p ∈ s.principals.tail := by
  unfold caller
  cases s.principals with
  | nil => simp
  | cons first rest => simp [eq_comm]

theorem mem_tail_replaceCaller {s : Subject} {caller p : Principal} (new : s.caller ≠ some caller) :
    p ∈ (s.replaceCaller caller).principals.tail ↔ p ∈ s.principals.tail ∧ p ≠ caller := by
  rw [replaceCaller_of_ne new, List.tail_cons, List.mem_filter, decide_eq_true_eq]

theorem caller_replaceCaller (s : Subject) (caller : Principal) : (s.replaceCaller caller).caller = some caller := by
  unfold replaceCaller
  split
  · assumption
  · rfl

variable {a b : Subject} (same : a.SameIdentity b)

include same

theorem SameIdentity.mem_principals (p : Principal) : p ∈ a.principals ↔ p ∈ b.principals := by
  rw [mem_principals_iff, mem_principals_iff, same.caller, same.others]

theorem SameIdentity.replaceCaller (caller : Principal) :
    (a.replaceCaller caller).SameIdentity (b.replaceCaller caller) := by
  refine ⟨by rw [caller_replaceCaller, caller_replaceCaller], fun p => ?_⟩
  by_cases kept : a.caller = some caller
  · have keptToo : b.caller = some caller := same.caller ▸ kept
    rw [Subject.replaceCaller, Subject.replaceCaller, if_pos kept, if_pos keptToo, same.others]
  · have changed : b.caller ≠ some caller := same.caller ▸ kept
    rw [mem_tail_replaceCaller kept, mem_tail_replaceCaller changed, same.others]

end Subject

namespace RoleRule

variable {a b : Subject} (same : a.SameIdentity b)

include same

theorem apply_of_sameIdentity (rule : RoleRule) (held : Finset String) : rule.apply a held = rule.apply b held := by
  have names : (a.principals.map (·.name)).toFinset = (b.principals.map (·.name)).toFinset := by
    ext name
    simp only [List.mem_toFinset, List.mem_map, same.mem_principals]
  cases rule with
  | grant table => rw [apply, apply, names]
  | extend table | replace table => rfl

theorem applyAll_of_sameIdentity (rules : List RoleRule) (held : Finset String) :
    applyAll a rules held = applyAll b rules held := by
  unfold applyAll
  simp only [apply_of_sameIdentity same]

end RoleRule

theorem RoleMapper.Tabled.exists_rule {mapper : RoleMapper} (tabled : mapper.Tabled) :
    ∃ rule : RoleRule, mapper = rule.mapper := by
  cases tabled with
  | byPrincipal table => exact ⟨.grant table, rfl⟩
  | byRole table replace =>
    cases replace with
    | false => exact ⟨.extend table, rfl⟩
    | true => exact ⟨.replace table, rfl⟩

theorem exists_rules_of_tabled {mappers : List RoleMapper} (each : ∀ mapper ∈ mappers, mapper.Tabled) :
    ∃ rules : List RoleRule, mappers = rules.map RoleRule.mapper := by
  induction mappers with
  | nil => exact ⟨[], rfl⟩
  | cons mapper rest ih =>
    obtain ⟨here, later⟩ := List.forall_mem_cons.mp each
    obtain ⟨rule, rfl⟩ := here.exists_rule
    obtain ⟨rules, rfl⟩ := ih later
    exact ⟨rule :: rules, rfl⟩

namespace Mapping

variable {a b : Subject} (same : a.SameIdentity b)

include same

theorem mapSubject_of_sameIdentity (mapping : Mapping) :
    Alike Subject.SameIdentity (mapping.mapSubject a) (mapping.mapSubject b) := by
  unfold mapSubject
  rw [same.caller]
  cases b.caller with
  | none => exact .ok same
  | some caller =>
    refine .bind_same fun mapped _ => .ok ?_
    split
    · exact same
    · exact same.replaceCaller mapped

theorem mapRoles_of_sameIdentity {mapping : Mapping} (tabled : ∀ mapper ∈ mapping.roleMappers, mapper.Tabled)
    (roles : RoleGroup) :
    Alike (fun g h : RoleGroup => g.leafNames = h.leafNames) (mapping.mapRoles a roles) (mapping.mapRoles b roles) := by
  obtain ⟨rules, chain⟩ := exists_rules_of_tabled tabled
  obtain ⟨g, runA, _, setA⟩ := mapRoles_follows chain a roles
  obtain ⟨h, runB, _, setB⟩ := mapRoles_follows chain b roles
  have sets : g.leafSet = h.leafSet := by rw [setA, setB, RoleRule.applyAll_of_sameIdentity same]
  rw [runA, runB]
  refine .ok (SortedSet.ext_keys fun name => ?_)
  rw [RoleGroup.mem_leafNames, RoleGroup.mem_leafNames, ← RoleGroup.mem_leafSet, ← RoleGroup.mem_leafSet, sets]

end Mapping

/-- A trust module of the library sees nothing of a subject but the caller. -/
theorem TrustModule.Listed.outcome_of_sameCaller {module : TrustModule} (listed : module.Listed) {a b : Subject}
    (caller : a.caller = b.caller) : module.outcome a = module.outcome b := by
  cases listed with
  | byName trusted distrusted =>
    have judged : (TrustModule.byName trusted distrusted).judge a =
        (TrustModule.byName trusted distrusted).judge b := by
      unfold TrustModule.byName
      simp only [caller]
    rw [outcome, outcome, judged]

theorem DomainConfig.DrawsAll.quiet {config : DomainConfig} {providers library : Providers} {sink : AuditSink}
    (draws : config.DrawsAll providers library) (standard : library.Standard) {m : Manager}
    (made : Manager.ofConfig config providers sink = .ok m) : m.Quiet := by
  obtain ⟨_, rfl⟩ := Manager.ofConfig_eq_ok.mp made
  refine ⟨fun e member => ?_, fun e member => ?_, fun e member => ?_, fun e member => ?_⟩
  · exact (Registry.silent_of_makes (draws.makes_module standard member) e.options).quiet
  · exact (Registry.silent_of_makes (draws.makes_roleMapper standard member) e.options).quiet
  · exact (Registry.silent_of_makes (draws.makes_principalMapper standard member) e.options).quiet
  · exact (Registry.silent_of_makes (draws.makes_trustModule standard member) e.options).quiet

namespace Manager

section Values

variable {config : DomainConfig} {providers library : Providers} {sink : AuditSink}
  (draws : config.DrawsAll providers library) (standard : library.Standard) {m : Manager}
  (made : ofConfig config providers sink = .ok m) {a b : Subject} (same : a.SameIdentity b)

include draws standard made same

theorem rolesOf_of_sameIdentity (roles : RoleGroup) :
    Alike (fun g h : RoleGroup => g.leafNames = h.leafNames) (m.rolesOf a roles) (m.rolesOf b roles) := by
  obtain ⟨_, rfl⟩ := ofConfig_eq_ok.mp made
  refine .bind_same fun mapping built => (mapping.mapSubject_of_sameIdentity same).bind fun a' b' same' => ?_
  exact Mapping.mapRoles_of_sameIdentity same' (draws.tabled standard built).1 roles

theorem mapped_of_sameIdentity (resource : Resource) (roles : RoleGroup) :
    Alike Request.LooksLike (m.mapped ⟨resource, a, roles⟩) (m.mapped ⟨resource, b, roles⟩) := by
  obtain ⟨_, rfl⟩ := ofConfig_eq_ok.mp made
  refine .bind_same fun mapping built => (mapping.mapSubject_of_sameIdentity same).bind fun a' b' same' => ?_
  have alike := Mapping.mapRoles_of_sameIdentity same' (draws.tabled standard built).1 roles
  exact alike.bind fun g h leaves => .ok ⟨rfl, same'.caller, leaves⟩

theorem hasRole_of_sameIdentity (roles : RoleGroup) (roleName : String) :
    (do pure ((← m.rolesOf a roles).holds roleName) : Except Error Bool) =
      (do pure ((← m.rolesOf b roles).holds roleName)) :=
  (rolesOf_of_sameIdentity draws standard made same roles).bind_eq fun _ _ leaves =>
    congrArg (fun holds : String → Bool => Except.ok (holds roleName)) (RoleGroup.holds_of_leafNames leaves)

theorem inRole_of_sameIdentity (roles : RoleGroup) (roleName : String) (refs : List RoleRef) :
    m.inRole a roles roleName refs = m.inRole b roles roleName refs := by
  unfold inRole
  refine bind_congr fun link => ?_
  exact hasRole_of_sameIdentity draws standard made same roles (link.getD roleName)

theorem trustOf_of_sameIdentity : m.trustOf a = m.trustOf b := by
  obtain ⟨_, rfl⟩ := ofConfig_eq_ok.mp made
  unfold trustOf
  cases built : TrustContext.result config.name config.trust providers.trustModules with
  | error e => rfl
  | ok trust =>
    have listed := draws.listed standard built
    have outcomes : trust.outcome a = trust.outcome b := congrArg aggregate (List.map_congr_left fun step member =>
      congrArg (Prod.mk step.flag) ((listed step member).outcome_of_sameCaller same.caller))
    exact congrArg (fun o : ChainOutcome => Except.ok (TrustDecision.ofChain o.decision)) outcomes

theorem verdict_of_sameIdentity (lookup : AclLookup) (resource : Resource) (roles : RoleGroup) :
    m.verdict lookup ⟨resource, a, roles⟩ = m.verdict lookup ⟨resource, b, roles⟩ ∧
      m.report lookup ⟨resource, a, roles⟩ = m.report lookup ⟨resource, b, roles⟩ := by
  have mapped := mapped_of_sameIdentity draws standard made same resource roles
  unfold verdict report
  generalize m.mapped ⟨resource, a, roles⟩ = r at mapped ⊢
  generalize m.mapped ⟨resource, b, roles⟩ = s at mapped ⊢
  obtain ⟨_, rfl⟩ := ofConfig_eq_ok.mp made
  cases built : Context.ofConfig config providers.modules sink with
  | error e => exact ⟨rfl, rfl⟩
  | ok c =>
    have layers : ∀ modules, c.registry.results c.entries = .ok modules → ∀ module ∈ modules, module.Layer := by
      have entries := Context.ofConfig_entries built
      obtain ⟨_, _, rfl⟩ := Context.ofConfig_eq_ok.mp built
      exact fun modules run => draws.layers standard (entries ▸ run)
    refine ⟨mapped.bind_eq fun r s alike => Context.verdict_of_looksLike layers lookup alike, ?_⟩
    cases mapped with
    | error e => rfl
    | ok alike => exact Context.report_of_looksLike layers lookup alike

end Values

/-- Two questions that are given related answers and that add the same events to the audit trail, whatever was asked
before of either of two managers of the domain, and whatever else has happened. -/
def Indistinct (fresh : Manager) {α : Type} (related : α → α → Prop) (x y : ManagerM α) : Prop :=
  ∀ m m', fresh.Reaches m → fresh.Reaches m' → ∀ trail trail',
    Alike related (x.result m trail) (y.result m' trail') ∧
      ∃ told, (x.left m trail).events = trail.events ++ told ∧ (y.left m' trail').events = trail'.events ++ told

theorem foldl_deliver (sink : AuditSink) (told events : List AuditEvent) :
    told.foldl sink.deliver events = events ++ told.foldl sink.deliver [] := by
  cases sink with
  | discard =>
    induction told with
    | nil => exact (List.append_nil events).symm
    | cons event rest ih => exact ih
  | keep =>
    induction told generalizing events with
    | nil => exact (List.append_nil events).symm
    | cons event rest ih =>
      rw [List.foldl_cons, List.foldl_cons, ih, ih (AuditSink.deliver .keep [] event)]
      exact List.append_assoc events [event] _

theorem indistinct_of_tells {fresh : Manager} {α : Type} {related : α → α → Prop} {x y : ManagerM α}
    {given given' : Except Error α} {told : List AuditEvent} (keeps : ∀ m, fresh.Reaches m → fresh.Keeps m)
    (yields : ManagerM.Yields fresh.Keeps x (· = given)) (yields' : ManagerM.Yields fresh.Keeps y (· = given'))
    (tells : ManagerM.Tells fresh.Keeps fresh.sink x told) (tells' : ManagerM.Tells fresh.Keeps fresh.sink y told)
    (alike : Alike related given given') : fresh.Indistinct related x y := by
  intro m m' reach reach' trail trail'
  rw [(yields m trail (keeps m reach)).1, (yields' m' trail' (keeps m' reach')).1]
  refine ⟨alike, told.foldl fresh.sink.deliver [], ?_, ?_⟩
  · exact (tells m trail (keeps m reach)).trans (foldl_deliver ..)
  · exact (tells' m' trail' (keeps m' reach')).trans (foldl_deliver ..)

/-- A domain of the library's providers tells subjects apart by their caller and by the set of their other principals
only. Every question about one is answered as it is about the other, and leaves the same audit events. The roles that
they are given may be listed in another order, but have the same leaf names. -/
theorem answers_by_identity {config : DomainConfig} {providers library : Providers} {sink : AuditSink}
    (standard : library.Standard) (draws : config.DrawsAll providers library) {fresh : Manager}
    (made : ofConfig config providers sink = .ok fresh) {a b : Subject} (same : a.SameIdentity b) :
    (∀ lookup resource roles, fresh.Indistinct (· = ·) (authorize lookup ⟨resource, a, roles⟩)
      (authorize lookup ⟨resource, b, roles⟩)) ∧
    (∀ roles roleName, fresh.Indistinct (· = ·) (hasRole a roles roleName) (hasRole b roles roleName)) ∧
    (∀ roles roleName refs, fresh.Indistinct (· = ·) (isInRole a roles roleName refs)
      (isInRole b roles roleName refs)) ∧
    fresh.Indistinct (· = ·) (isTrusted a) (isTrusted b) ∧
    (∀ roles, fresh.Indistinct (fun g h : RoleGroup => g.leafNames = h.leafNames) (subjectRoles a roles)
      (subjectRoles b roles)) := by
  have allSteady := draws.allSteady standard made
  have steady := allSteady.toSteady
  have quiet := draws.quiet standard made
  have keeps : ∀ m, fresh.Reaches m → fresh.Keeps m := fun m reach => reach.keeps steady (ofConfig_keeps made)
  refine ⟨fun lookup resource roles => ?_, fun roles roleName => ?_, fun roles roleName refs => ?_, ?_, fun roles => ?_⟩
  · obtain ⟨answers, reports⟩ := verdict_of_sameIdentity draws standard made same lookup resource roles
    exact indistinct_of_tells keeps (authorize_yields steady lookup _) (authorize_yields steady lookup _)
      (authorize_tells quiet steady lookup _) (reports ▸ authorize_tells quiet steady lookup _) (.of_eq answers)
  · exact indistinct_of_tells keeps (hasRole_yields steady a roles roleName) (hasRole_yields steady b roles roleName)
      (hasRole_tells quiet steady a roles roleName) (hasRole_tells quiet steady b roles roleName)
      (.of_eq (hasRole_of_sameIdentity draws standard made same roles roleName))
  · exact indistinct_of_tells keeps (isInRole_yields steady a roles roleName refs)
      (isInRole_yields steady b roles roleName refs) (isInRole_tells quiet steady a roles roleName refs)
      (isInRole_tells quiet steady b roles roleName refs)
      (.of_eq (inRole_of_sameIdentity draws standard made same roles roleName refs))
  · exact indistinct_of_tells keeps (isTrusted_yields_trustOf allSteady a) (isTrusted_yields_trustOf allSteady b)
      (isTrusted_tells quiet a) (isTrusted_tells quiet b) (.of_eq (trustOf_of_sameIdentity draws standard made same))
  · exact indistinct_of_tells keeps (subjectRoles_yields steady a roles) (subjectRoles_yields steady b roles)
      (subjectRoles_tells quiet steady a roles) (subjectRoles_tells quiet steady b roles)
      (rolesOf_of_sameIdentity draws standard made same roles)

/-- The caller is renamed to one of the other principals, who goes from the list. The other subject names the same
principals in another order, one of them once only, and carries a credential. -/
theorem answers_by_identity_renamed :
    let renames := Options.empty.withValue "principals" (.obj [("ann", .str "bob")])
    let grants := Options.empty.withValue "principals"
      (.obj [("bob", .arr [.str "clerk"]), ("cid", .arr [.str "auditor"])])
    let config := { (DomainConfig.ofName "ledger").withModule (.plain "delegating" .required) with
      principalMapping := [⟨"principal-map", renames⟩], roleMapping := [⟨"principal-roles", grants⟩] }
    let lookup := (AclStore.memory (.empty .reject)).lookup
    let call := { BeanCall.ofBean "Ledger" with methodRoles := .ofNames "MethodRoles" ["auditor"] }
    let a : Subject := ⟨[⟨"ann"⟩, ⟨"bob"⟩, ⟨"cid"⟩, ⟨"bob"⟩], .empty⟩
    let b : Subject := ⟨[⟨"ann"⟩, ⟨"cid"⟩, ⟨"bob"⟩], .ofList [("token", "7")]⟩
    let request := fun subject => (⟨.ofBeanCall call, subject, .empty "Roles"⟩ : Request)
    ∃ fresh, ofConfig config Providers.builtin.withAcl .keep = .ok fresh ∧ a.SameIdentity b ∧
      (authorize lookup (request a)).result fresh .empty = .ok .permit ∧
      (authorize lookup (request b)).result fresh .empty = .ok .permit ∧
      ((authorize lookup (request b)).left fresh .empty).events =
        ((authorize lookup (request a)).left fresh .empty).events ∧
      ((authorize lookup (request a)).left fresh .empty).events.map (·.level) = [.info, .success] := by
  intro renames grants config lookup call a b request
  have made : ofConfig config Providers.builtin.withAcl .keep =
      .ok ⟨config, Providers.builtin.withAcl, .keep, none, none, none⟩ := ofConfig_eq_ok.mpr ⟨by decide, rfl⟩
  have same : a.SameIdentity b := by
    refine ⟨rfl, fun p => ?_⟩
    simp only [a, b, List.tail_cons, List.mem_cons, List.not_mem_nil, or_false]
    tauto
  have draws : config.DrawsAll Providers.builtin.withAcl Providers.builtin.withAcl :=
    ⟨⟨fun _ _ => rfl, fun _ _ => rfl, fun _ _ => rfl⟩, fun _ _ => rfl⟩
  have permits : (authorize lookup (request a)).result
      ⟨config, Providers.builtin.withAcl, .keep, none, none, none⟩ .empty = .ok .permit := by decide +kernel
  obtain ⟨answers, _, toldA, toldB⟩ := (answers_by_identity .full draws made same).1 lookup (.ofBeanCall call)
    (.empty "Roles") _ _ .start .start .empty .empty
  refine ⟨_, made, same, permits, answers.eq.symm.trans permits, toldB.trans toldA.symm, ?_⟩
  decide +kernel

end Manager

end AccessControl
