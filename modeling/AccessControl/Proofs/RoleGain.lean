import AccessControl.Proofs.LayerOrder
import AccessControl.Proofs.StandardDomain

namespace AccessControl

/-- The second decision permits if the first does. -/
def Decision.KeptBy (d d' : Decision) : Prop := d = .permit → d' = .permit

theorem Decision.permit_of_keptBy {r r' : Except Error Decision} (alike : Alike KeptBy r r')
    (permits : r = .ok .permit) : r' = .ok .permit := by
  cases alike with
  | error e => cases permits
  | ok keeps =>
    cases permits
    rw [keeps rfl]

theorem Decision.eq_of_keptBy {r r' : Except Error Decision} (there : Alike KeptBy r r') (back : Alike KeptBy r' r) :
    r = r' := by
  cases there with
  | error e => rfl
  | @ok d d' keeps =>
    cases back with
    | ok keeps' =>
      cases d with
      | permit => rw [keeps rfl]
      | deny =>
        cases d' with
        | deny => rfl
        | permit => exact absurd (keeps' rfl) nofun

section MoreRoles

variable {g h : RoleGroup} (within : g.Within h) (store : MemoryStore) (resource : Resource) (subject : Subject)

include within

theorem Context.conclude_of_more_roles (c : Context) {modules : List Module}
    (layers : ∀ module ∈ modules, module.Layer) :
    Alike Decision.KeptBy
      (c.conclude (aggregate (c.outcomes (AclStore.memory store).lookup ⟨resource, subject, g⟩ modules)))
      (c.conclude (aggregate (c.outcomes (AclStore.memory store).lookup ⟨resource, subject, h⟩ modules))) := by
  have rises : ∀ s ∈ c.entries.zip modules,
      (s.2.answer (AclStore.memory store).lookup ⟨resource, subject, g⟩).Rises
        (s.2.answer (AclStore.memory store).lookup ⟨resource, subject, h⟩) := fun s member =>
    (layers s.2 (List.of_mem_zip member).2).rises_answer within store resource subject
  have order : (aggregate (c.outcomes (AclStore.memory store).lookup ⟨resource, subject, g⟩ modules)).decision.AtMost
      (aggregate (c.outcomes (AclStore.memory store).lookup ⟨resource, subject, h⟩ modules)).decision := by
    refine aggregate_atMost ?_
    unfold outcomes
    rw [List.forall₂_map_left_iff, List.forall₂_map_right_iff, List.forall₂_same]
    exact fun s member => ⟨rfl, (rises s member).le⟩
  have sound : (aggregate (c.outcomes (AclStore.memory store).lookup ⟨resource, subject, g⟩ modules)).decidingError =
      none := by
    refine aggregate_decidingError_eq_none fun step member => ?_
    obtain ⟨s, place, rfl⟩ := List.mem_map.mp member
    exact (rises s place).sound
  have sound' : (aggregate (c.outcomes (AclStore.memory store).lookup ⟨resource, subject, h⟩ modules)).decidingError =
      none := by
    refine aggregate_decidingError_eq_none fun step member => ?_
    obtain ⟨s, place, rfl⟩ := List.mem_map.mp member
    exact (rises s place).sound'
  rw [conclude_of_none sound, conclude_of_none sound']
  exact .ok (order c.settings.emptyChainDecision)

theorem Context.verdict_of_more_roles (c : Context)
    (layers : ∀ modules, c.registry.results c.entries = .ok modules → ∀ module ∈ modules, module.Layer) :
    Alike Decision.KeptBy (c.verdict (AclStore.memory store).lookup ⟨resource, subject, g⟩)
      (c.verdict (AclStore.memory store).lookup ⟨resource, subject, h⟩) := by
  unfold verdict
  refine .bind_same fun modules built => .bind_same fun linked _ => ?_
  exact c.conclude_of_more_roles within store linked subject (layers modules built)

variable {config : DomainConfig} {providers library : Providers} {sink : AuditSink}
  (draws : config.Draws providers library) (standard : library.Standard) {m : Manager}
  (made : Manager.ofConfig config providers sink = .ok m)

include draws standard made

/-- Mapping keeps the order of two groups of roles, and it maps the caller without looking at either. -/
theorem Manager.mapped_of_more_roles :
    Alike (fun r r' : Request => ∃ mappedSubject g' h', RoleGroup.Within g' h' ∧
        r = ⟨resource, mappedSubject, g'⟩ ∧ r' = ⟨resource, mappedSubject, h'⟩)
      (m.mapped ⟨resource, subject, g⟩) (m.mapped ⟨resource, subject, h⟩) := by
  obtain ⟨_, rfl⟩ := ofConfig_eq_ok.mp made
  refine .bind_same fun mapping built => ?_
  obtain ⟨roleMappers, principalMappers⟩ := draws.tabled standard built
  obtain ⟨mappedSubject, subjectRun⟩ := mapping.mapSubject_total
    (fun mapper member => (principalMappers mapper member).total) subject
  obtain ⟨g', h', runG, runH, within'⟩ := mapping.mapRoles_widening
    (fun mapper member => (roleMappers mapper member).widening) mappedSubject within
  simp only [subjectRun, runG, runH, bind, Except.bind]
  exact .ok ⟨mappedSubject, g', h', within', rfl, rfl⟩

theorem Manager.verdict_of_more_roles :
    Alike Decision.KeptBy (m.verdict (AclStore.memory store).lookup ⟨resource, subject, g⟩)
      (m.verdict (AclStore.memory store).lookup ⟨resource, subject, h⟩) := by
  have mapped := mapped_of_more_roles within resource subject draws standard made
  obtain ⟨_, rfl⟩ := ofConfig_eq_ok.mp made
  refine .bind_same fun c built => mapped.bind ?_
  rintro _ _ ⟨mappedSubject, g', h', within', rfl, rfl⟩
  refine c.verdict_of_more_roles within' store resource mappedSubject fun modules run => ?_
  have entries := Context.ofConfig_entries built
  obtain ⟨_, _, rfl⟩ := Context.ofConfig_eq_ok.mp built
  rw [entries] at run
  exact draws.layers standard run

end MoreRoles

/-- Roles never cost access, over any domain of the library's providers whose stored lists stay the same. Whatever the
two managers of the domain were asked before, who is permitted with some roles is permitted with more, and who is
answered by an error is answered by the same one. Only the names of the leaves count, so groups of the same leaf names
are answered alike. -/
theorem Manager.authorize_of_more_roles {config : DomainConfig} {providers library : Providers} {sink : AuditSink}
    (standard : library.Standard) (draws : config.Draws providers library) {fresh m m' : Manager}
    (made : Manager.ofConfig config providers sink = .ok fresh) (reach : fresh.Reaches m) (reach' : fresh.Reaches m')
    (store : MemoryStore) (resource : Resource) (subject : Subject) (g h : RoleGroup) (trail trail' : Trail) :
    let answer := (Manager.authorize (AclStore.memory store).lookup ⟨resource, subject, g⟩).result m trail
    let answer' := (Manager.authorize (AclStore.memory store).lookup ⟨resource, subject, h⟩).result m' trail'
    (g.leafNames.keys ⊆ h.leafNames.keys →
      (answer = .ok .permit → answer' = .ok .permit) ∧ ∀ e, answer = .error e ↔ answer' = .error e) ∧
    (g.leafNames = h.leafNames → answer = answer') := by
  have steady := draws.steady standard made
  have start := Manager.ofConfig_keeps made
  have run : ∀ {m : Manager}, fresh.Reaches m → ∀ trail request,
      (Manager.authorize (AclStore.memory store).lookup request).result m trail =
        fresh.verdict (AclStore.memory store).lookup request := fun reach trail request =>
    (Manager.authorize_yields steady _ request _ trail (reach.keeps steady start)).1
  have more : ∀ {g h : RoleGroup}, g.leafNames.keys ⊆ h.leafNames.keys →
      Alike Decision.KeptBy (fresh.verdict (AclStore.memory store).lookup ⟨resource, subject, g⟩)
        (fresh.verdict (AclStore.memory store).lookup ⟨resource, subject, h⟩) := by
    intro g h names
    have within : g.Within h := fun name leaf =>
      RoleGroup.mem_leafNames.mp (names (RoleGroup.mem_leafNames.mpr leaf))
    exact Manager.verdict_of_more_roles within store resource subject draws standard made
  rw [run reach, run reach']
  refine ⟨fun names => ⟨Decision.permit_of_keptBy (more names), (more names).error_iff⟩, fun same => ?_⟩
  exact Decision.eq_of_keptBy (more (same ▸ fun _ member => member)) (more (same ▸ fun _ member => member))

/-- A clerk is permitted through a table that puts auditors in the place of clerks. So is a clerk by another parent
inside a nested group, when the manager is asked again. -/
theorem Manager.authorize_of_more_roles_nested :
    let tables := Options.empty.withValue "roles" (.obj [("clerk", .arr [.str "auditor"])])
    let config := { (DomainConfig.ofName "ledger").withModule (.plain "delegating" .required) with
      roleMapping := [⟨"role-map", tables.withValue "replace-roles" (.bool true)⟩] }
    let lookup := (AclStore.memory (.empty .reject)).lookup
    let call := { BeanCall.ofBean "Ledger" with methodRoles := .ofNames "MethodRoles" ["auditor"] }
    let few := RoleGroup.ofNames "Roles" ["clerk"]
    let many : RoleGroup := ⟨"Staff", [.group "desk" [.simple ⟨"clerk", some "Roles"⟩, .named "guest"]]⟩
    let request := fun roles => (⟨.ofBeanCall call, .ofCaller ⟨"ann"⟩, roles⟩ : Request)
    ∃ fresh, ofConfig config Providers.builtin.withAcl .keep = .ok fresh ∧ few.leafNames.keys ⊆ many.leafNames.keys ∧
      (authorize lookup (request few)).result fresh .empty = .ok .permit ∧
      (authorize lookup (request many)).result ((authorize lookup (request few)).after fresh .empty) .empty =
        .ok .permit := by
  intro tables config lookup call few many request
  have made : ofConfig config Providers.builtin.withAcl .keep =
      .ok ⟨config, Providers.builtin.withAcl, .keep, none, none, none⟩ := ofConfig_eq_ok.mpr ⟨by decide, rfl⟩
  have names : few.leafNames.keys ⊆ many.leafNames.keys := by decide
  have permits : (authorize lookup (request few)).result
      ⟨config, Providers.builtin.withAcl, .keep, none, none, none⟩ .empty = .ok .permit := by decide +kernel
  have again := authorize_of_more_roles .full ⟨fun _ _ => rfl, fun _ _ => rfl, fun _ _ => rfl⟩ made .start
    (.next (.authorize lookup (request few)) .empty .start) (.empty .reject) (.ofBeanCall call) (.ofCaller ⟨"ann"⟩)
    few many .empty .empty
  exact ⟨_, made, names, permits, (again.1 names).1 permits⟩

end AccessControl
