import AccessControl.Proofs.ContextRefinement

namespace AccessControl

/-- The first reference with a name, in the order in which the references were declared. -/
def FirstNamed (refs : List RoleRef) (name : String) (ref : RoleRef) : Prop :=
  ∃ before after, refs = before ++ ref :: after ∧ ref.name = name ∧ ∀ earlier ∈ before, earlier.name ≠ name

theorem resolveRoleLink_of_first {refs : List RoleRef} {name : String} {ref : RoleRef}
    (first : FirstNamed refs name ref) : resolveRoleLink refs name = some ref.link := by
  obtain ⟨before, after, split, named, earlier⟩ := first
  have found : refs.find? (·.name == name) = some ref := by
    refine List.find?_eq_some_iff_append.mpr ⟨beq_iff_eq.mpr named, before, after, split, fun r member => ?_⟩
    exact Bool.not_eq_true' _ ▸ beq_eq_false_iff_ne.mpr (earlier r member)
  rw [resolveRoleLink, found, Option.map_some]

theorem resolveRoleLink_of_none_named {refs : List RoleRef} {name : String} (unnamed : ∀ ref ∈ refs, ref.name ≠ name) :
    resolveRoleLink refs name = none := by
  have missing : refs.find? (·.name == name) = none :=
    List.find?_eq_none.mpr fun ref member => fun named => unnamed ref member (beq_iff_eq.mp named)
  rw [resolveRoleLink, missing, Option.map_none]

theorem exists_firstNamed {refs : List RoleRef} {name : String} (named : ∃ ref ∈ refs, ref.name = name) :
    ∃ ref, FirstNamed refs name ref := by
  cases search : refs.find? (·.name == name) with
  | none =>
    obtain ⟨ref, member, same⟩ := named
    exact absurd (beq_iff_eq.mpr same) (List.find?_eq_none.mp search ref member)
  | some ref =>
    obtain ⟨same, before, after, split, earlier⟩ := List.find?_eq_some_iff_append.mp search
    refine ⟨ref, before, after, split, beq_iff_eq.mp same, fun r member => ?_⟩
    exact beq_eq_false_iff_ne.mp ((Bool.not_eq_true' _).mp (earlier r member))

theorem FirstNamed.link_unique {refs : List RoleRef} {name : String} {ref other : RoleRef}
    (first : FirstNamed refs name ref) (again : FirstNamed refs name other) : ref.link = other.link :=
  Option.some.inj ((resolveRoleLink_of_first first).symm.trans (resolveRoleLink_of_first again))

namespace Settings

/-- Nothing is rejected unless references are enforced. Then a name needs a reference, and where roles are declared the
first reference with that name has to link to one of them. -/
structure Rejects (s : Settings) (refs : List RoleRef) (name : String) : Prop where
  enforced : s.enforceRoleRefs = true
  fault : (∀ ref ∈ refs, ref.name ≠ name) ∨
    s.declaredRoles.keys ≠ [] ∧ ∃ ref, FirstNamed refs name ref ∧ ref.link ∉ s.declaredRoles.keys

theorem undeclared_iff {s : Settings} {role : String} :
    (!s.declaredRoles.isEmpty && !s.declaredRoles.contains role) = true ↔
      s.declaredRoles.keys ≠ [] ∧ role ∉ s.declaredRoles.keys := by
  rw [Bool.and_eq_true, Bool.not_eq_true', Bool.not_eq_true', SortedMap.mem_keys, Bool.not_eq_true, SortedMap.isEmpty,
    List.isEmpty_eq_false_iff, SortedMap.keys, ne_eq, ne_eq, List.map_eq_nil_iff]

theorem resolveRoleRef_of_rejects {s : Settings} {refs : List RoleRef} {name : String} (rejects : s.Rejects refs name) :
    ∃ e, s.resolveRoleRef refs name = .error e := by
  unfold resolveRoleRef
  rcases rejects.fault with unnamed | ⟨declared, ref, first, undeclared⟩
  · rw [resolveRoleLink_of_none_named unnamed, rejects.enforced]
    exact ⟨_, rfl⟩
  · rw [resolveRoleLink_of_first first, rejects.enforced]
    simp only [Bool.not_true, Bool.false_eq_true, if_false, undeclared_iff.mpr ⟨declared, undeclared⟩, if_true]
    exact ⟨_, rfl⟩

theorem resolveRoleRef_of_first {s : Settings} {refs : List RoleRef} {name : String} {ref : RoleRef}
    (first : FirstNamed refs name ref) (accepts : ¬s.Rejects refs name) :
    s.resolveRoleRef refs name = .ok (some ref.link) := by
  unfold resolveRoleRef
  rw [resolveRoleLink_of_first first]
  cases enforced : s.enforceRoleRefs with
  | false => rfl
  | true =>
    have declared : ¬(!s.declaredRoles.isEmpty && !s.declaredRoles.contains ref.link) = true := fun undeclared =>
      accepts ⟨enforced, .inr ⟨(undeclared_iff.mp undeclared).1, ref, first, (undeclared_iff.mp undeclared).2⟩⟩
    simp only [Bool.not_true, Bool.false_eq_true, if_false, declared]

theorem resolveRoleRef_of_none_named {s : Settings} {refs : List RoleRef} {name : String}
    (lenient : s.enforceRoleRefs = false) (unnamed : ∀ ref ∈ refs, ref.name ≠ name) :
    s.resolveRoleRef refs name = .ok none := by
  unfold resolveRoleRef
  rw [resolveRoleLink_of_none_named unnamed, lenient]
  rfl

end Settings

namespace Detail

/-- The same request with this role check in the place of its own. -/
def withCheck (check : Option RoleCheck) : Detail → Detail
  | ejb call => ejb { call with roleCheck := check }
  | web request => web { request with roleCheck := check }
  | generic => generic
  | acl permission => acl permission

/-- What a request says besides its role check. The declared references are part of it. -/
def withoutCheck (detail : Detail) : Detail := detail.withCheck none

theorem link_of_check {detail : Detail} {check : RoleCheck} {refs : List RoleRef}
    (asks : detail.roleCheck? = some (check, refs)) (role : String) :
    detail.link role = detail.withoutCheck.withCheck (some ⟨check.roleName, some role⟩) := by
  cases detail with
  | ejb call =>
    obtain ⟨_, asked, own⟩ := Option.map_eq_some_iff.mp asks
    obtain ⟨rfl, _⟩ := Prod.mk.inj own
    simp only [link, asked, Option.map_some]
    rfl
  | web request =>
    obtain ⟨_, asked, own⟩ := Option.map_eq_some_iff.mp asks
    obtain ⟨rfl, _⟩ := Prod.mk.inj own
    simp only [link, asked, Option.map_some]
    rfl
  | generic | acl _ => cases asks

end Detail

namespace Resource

/-- The same resource with its role check linked to a role, and with nothing else changed. -/
structure LinkedTo (resource : Resource) (role : String) (linked : Resource) : Prop where
  id : linked.id = resource.id
  attributes : linked.attributes = resource.attributes
  check : ∀ check refs, resource.roleCheck? = some (check, refs) →
    linked.roleCheck? = some (⟨check.roleName, some role⟩, refs)
  rest : linked.detail.withoutCheck = resource.detail.withoutCheck

/-- Two resources with a role check for one name that differ at most in the linked roles that they arrive with. -/
structure SameButLink (a b : Resource) : Prop where
  id : a.id = b.id
  attributes : a.attributes = b.attributes
  check : ∃ check check' refs, a.roleCheck? = some (check, refs) ∧ b.roleCheck? = some (check', refs) ∧
    check.roleName = check'.roleName
  rest : a.detail.withoutCheck = b.detail.withoutCheck

theorem linkedTo_linkRole (resource : Resource) (role : String) : resource.LinkedTo role (resource.linkRole role) := by
  obtain ⟨id, detail, attributes⟩ := resource
  refine ⟨rfl, rfl, fun check refs asks => ?_, ?_⟩
  · cases detail with
    | ejb call =>
      obtain ⟨own, asked, same⟩ := Option.map_eq_some_iff.mp asks
      cases same
      simp only [roleCheck?, linkRole, Detail.link, Detail.roleCheck?, asked, Option.map_some]
    | web request =>
      obtain ⟨own, asked, same⟩ := Option.map_eq_some_iff.mp asks
      cases same
      simp only [roleCheck?, linkRole, Detail.link, Detail.roleCheck?, asked, Option.map_some]
    | generic | acl _ => cases asks
  · cases detail <;> rfl

/-- Linking the role check forgets the linked role that was there before. -/
theorem SameButLink.linkRole_eq {a b : Resource} (same : a.SameButLink b) (role : String) :
    a.linkRole role = b.linkRole role := by
  obtain ⟨check, check', refs, asksA, asksB, sameName⟩ := same.check
  have linked : a.detail.link role = b.detail.link role := by
    rw [Detail.link_of_check asksA, Detail.link_of_check asksB, same.rest, sameName]
  rw [linkRole, linkRole, linked, same.id, same.attributes]

end Resource

/-- Two such resources look the same to a chain, unless a check without a reference is let through. -/
theorem Settings.linkRoles_of_sameButLink {s : Settings} {a b : Resource} (same : a.SameButLink b)
    {check : RoleCheck} {refs : List RoleRef} (asks : a.roleCheck? = some (check, refs))
    (looked : s.enforceRoleRefs = true ∨ ∃ ref ∈ refs, ref.name = check.roleName) :
    s.linkRoles a = s.linkRoles b := by
  obtain ⟨_, other, _, asksA, asksB, sameName⟩ := same.check
  cases asks.symm.trans asksA
  rw [linkRoles_of_check s asksA, linkRoles_of_check s asksB, ← sameName]
  cases resolved : s.resolveRoleRef refs check.roleName with
  | error e => rfl
  | ok link =>
    cases link with
    | some role => exact congrArg Except.ok (same.linkRole_eq role)
    | none =>
      -- A check is let through as it stands only where references are not enforced and none has its name.
      exfalso
      by_cases named : ∃ ref ∈ refs, ref.name = check.roleName
      · obtain ⟨ref, first⟩ := exists_firstNamed named
        by_cases rejects : s.Rejects refs check.roleName
        · obtain ⟨e, failed⟩ := resolveRoleRef_of_rejects rejects
          cases resolved.symm.trans failed
        · cases resolved.symm.trans (resolveRoleRef_of_first first rejects)
      · have enforced := looked.resolve_right named
        have unnamed : ∀ ref ∈ refs, ref.name ≠ check.roleName := fun ref member same => named ⟨ref, member, same⟩
        obtain ⟨e, failed⟩ := resolveRoleRef_of_rejects (s := s) ⟨enforced, .inl unnamed⟩
        cases resolved.symm.trans failed

namespace Context

/-- The request fails with a configuration error, and no module is asked. -/
def Refuses (c : Context) (lookup : AclLookup) (request : Request) (trail : Trail) : Prop :=
  ∃ e : Error, e.kind = .configuration ∧ ((c.authorize lookup request).run trail).1.1 = .error e ∧
    ((c.authorize lookup request).run trail).2 =
      ((buildCells c.registry c.cells).run trail).2.deliver c.sink (c.decisionEvent request (.error e))

/-- The chain is run on this resource in place of the requested one. The modules up to the end of the chain are asked
about it, one after another, and their outcomes decide. -/
def Shows (c : Context) (lookup : AclLookup) (request : Request) (trail : Trail) (modules : List Module)
    (resource : Resource) : Prop :=
  let shown := { request with resource }
  let o := aggregate (c.outcomes lookup shown modules)
  ((c.authorize lookup request).run trail).1.1 = c.conclude o ∧
    ((c.authorize lookup request).run trail).2 =
      (c.asked lookup shown ((buildCells c.registry c.cells).run trail).2
        ((c.entries.zip modules).take o.evaluated)).deliver c.sink (c.decisionEvent request (c.conclude o))

theorem conclude_failsOnly (c : Context) (o : ChainOutcome) : FailsOnly .authorization (c.conclude o) := by
  unfold conclude
  cases o.decidingError with
  | none => exact failsOnly_ok _
  | some e => exact failsOnly_error rfl

section Run

variable {c : Context} {lookup : AclLookup} {request : Request} {trail : Trail} {modules : List Module}

theorem refuses_of_rejected (built : ((buildCells c.registry c.cells).run trail).1.2 = .ok modules) {e : Error}
    (kind : e.kind = .configuration) (rejected : c.settings.linkRoles request.resource = .error e) :
    c.Refuses lookup request trail := by
  refine ⟨e, kind, ?_, ?_⟩ <;> rw [authorize_run, built] <;> simp only [judge, rejected] <;> rfl

theorem shows_of_linked (built : ((buildCells c.registry c.cells).run trail).1.2 = .ok modules) {resource : Resource}
    (linked : c.settings.linkRoles request.resource = .ok resource) :
    c.Shows lookup request trail modules resource := by
  constructor <;> rw [authorize_run, built] <;> simp only [judge, linked, Traced.run_bind, evaluate_run] <;> rfl

theorem Shows.failsOnly {resource : Resource} (shows : c.Shows lookup request trail modules resource) :
    FailsOnly .authorization ((c.authorize lookup request).run trail).1.1 :=
  shows.1 ▸ c.conclude_failsOnly _

theorem Shows.not_refuses {resource : Resource} (shows : c.Shows lookup request trail modules resource) :
    ¬c.Refuses lookup request trail := by
  rintro ⟨e, kind, failed, _⟩
  cases kind.symm.trans (shows.failsOnly e failed)

variable {check : RoleCheck} {refs : List RoleRef}

/-- A role check with a reference is shown to the modules with the link of the first one. -/
theorem shows_of_first (built : ((buildCells c.registry c.cells).run trail).1.2 = .ok modules)
    (asks : request.resource.roleCheck? = some (check, refs)) {ref : RoleRef}
    (first : FirstNamed refs check.roleName ref) (accepts : ¬c.settings.Rejects refs check.roleName) :
    c.Shows lookup request trail modules (request.resource.linkRole ref.link) := by
  refine shows_of_linked built ?_
  rw [Settings.linkRoles_of_check _ asks, Settings.resolveRoleRef_of_first first accepts]
  rfl

theorem shows_of_none_named (built : ((buildCells c.registry c.cells).run trail).1.2 = .ok modules)
    (asks : request.resource.roleCheck? = some (check, refs)) (lenient : c.settings.enforceRoleRefs = false)
    (unnamed : ∀ ref ∈ refs, ref.name ≠ check.roleName) :
    c.Shows lookup request trail modules request.resource := by
  refine shows_of_linked built ?_
  rw [Settings.linkRoles_of_check _ asks, Settings.resolveRoleRef_of_none_named lenient unnamed]
  rfl

theorem refuses_of_rejects (built : ((buildCells c.registry c.cells).run trail).1.2 = .ok modules)
    (asks : request.resource.roleCheck? = some (check, refs)) (rejects : c.settings.Rejects refs check.roleName) :
    c.Refuses lookup request trail := by
  obtain ⟨e, rejected⟩ := Settings.resolveRoleRef_of_rejects rejects
  exact refuses_of_rejected built (Settings.resolveRoleRef_error_kind rejected)
    (Settings.linkRoles_eq_error.mpr ⟨check, refs, asks, rejected⟩)

/-- A check that the settings do not reject has a first reference wherever references are enforced. -/
theorem exists_first_of_accepts (enforced : c.settings.enforceRoleRefs = true)
    (accepts : ¬c.settings.Rejects refs check.roleName) : ∃ ref, FirstNamed refs check.roleName ref ∧
      (c.settings.declaredRoles.keys ≠ [] → ref.link ∈ c.settings.declaredRoles.keys) := by
  have named : ∃ ref ∈ refs, ref.name = check.roleName := by
    by_contra none
    exact accepts ⟨enforced, .inl fun ref member same => none ⟨ref, member, same⟩⟩
  obtain ⟨ref, first⟩ := exists_firstNamed named
  refine ⟨ref, first, fun declared => ?_⟩
  by_contra undeclared
  exact accepts ⟨enforced, .inr ⟨declared, ref, first, undeclared⟩⟩

end Run

theorem decisionEvent_congr (c : Context) {a b : Request} (id : a.resource.id = b.resource.id)
    (attributes : a.resource.attributes = b.resource.attributes) (subject : a.subject = b.subject)
    (answer : Except Error Decision) : c.decisionEvent a answer = c.decisionEvent b answer := by
  simp only [decisionEvent, Resource.text, id, attributes, subject]

/-- Where references are enforced, a role check is refused with a configuration error and without asking any module
exactly when no reference has its name, or the first that does links to a role that is not among those declared.
Otherwise, and wherever references are not enforced, the modules are shown the link of the first reference with the
name, in place of whatever link the request came with, and nothing else is changed. Only a check without a reference
that is let through keeps its link, so in every other case the answer, what is kept and the marks on the trail do not
depend on it. -/
theorem authorize_relinks :
    (∀ (c : Context) (lookup : AclLookup) (request : Request) (trail : Trail) (modules : List Module)
      (check : RoleCheck) (refs : List RoleRef),
      ((buildCells c.registry c.cells).run trail).1.2 = .ok modules →
      request.resource.roleCheck? = some (check, refs) →
      (c.settings.enforceRoleRefs = true →
        (c.Refuses lookup request trail ↔ (∀ ref ∈ refs, ref.name ≠ check.roleName) ∨
          c.settings.declaredRoles.keys ≠ [] ∧
            ∃ ref, FirstNamed refs check.roleName ref ∧ ref.link ∉ c.settings.declaredRoles.keys) ∧
        (¬c.Refuses lookup request trail → ∃ ref linked, FirstNamed refs check.roleName ref ∧
          request.resource.LinkedTo ref.link linked ∧ c.Shows lookup request trail modules linked ∧
          (c.settings.declaredRoles.keys ≠ [] → ref.link ∈ c.settings.declaredRoles.keys))) ∧
      (c.settings.enforceRoleRefs = false →
        FailsOnly .authorization ((c.authorize lookup request).run trail).1.1 ∧
        (∀ ref, FirstNamed refs check.roleName ref →
          ∃ linked, request.resource.LinkedTo ref.link linked ∧ c.Shows lookup request trail modules linked) ∧
        ((∀ ref ∈ refs, ref.name ≠ check.roleName) → c.Shows lookup request trail modules request.resource))) ∧
    (∀ (c : Context) (a b : Resource) (check : RoleCheck) (refs : List RoleRef), a.SameButLink b →
      a.roleCheck? = some (check, refs) →
      c.settings.enforceRoleRefs = true ∨ (∃ ref ∈ refs, ref.name = check.roleName) →
      ∀ (lookup : AclLookup) (subject : Subject) (roles : RoleGroup),
        c.authorize lookup ⟨a, subject, roles⟩ = c.authorize lookup ⟨b, subject, roles⟩) := by
  refine ⟨fun c lookup request trail modules check refs built asks => ⟨fun enforced => ?_, fun lenient => ?_⟩, ?_⟩
  · have decided (accepts : ¬c.settings.Rejects refs check.roleName) : ∃ ref linked,
        FirstNamed refs check.roleName ref ∧ request.resource.LinkedTo ref.link linked ∧
          c.Shows lookup request trail modules linked ∧
          (c.settings.declaredRoles.keys ≠ [] → ref.link ∈ c.settings.declaredRoles.keys) := by
      obtain ⟨ref, first, declared⟩ := exists_first_of_accepts enforced accepts
      exact ⟨ref, _, first, Resource.linkedTo_linkRole _ _, shows_of_first built asks first accepts, declared⟩
    refine ⟨⟨fun refuses => ?_, fun fault => refuses_of_rejects built asks ⟨enforced, fault⟩⟩, fun served => ?_⟩
    · by_contra sound
      obtain ⟨_, _, _, _, shows, _⟩ := decided fun rejects => sound rejects.fault
      exact shows.not_refuses refuses
    · exact decided fun rejects => served (refuses_of_rejects built asks rejects)
  · have accepts : ¬c.settings.Rejects refs check.roleName := fun rejects =>
      Bool.false_ne_true (lenient.symm.trans rejects.enforced)
    have linkedTo (ref : RoleRef) (first : FirstNamed refs check.roleName ref) :
        ∃ linked, request.resource.LinkedTo ref.link linked ∧ c.Shows lookup request trail modules linked :=
      ⟨_, Resource.linkedTo_linkRole _ _, shows_of_first built asks first accepts⟩
    refine ⟨?_, linkedTo, shows_of_none_named built asks lenient⟩
    by_cases named : ∃ ref ∈ refs, ref.name = check.roleName
    · obtain ⟨ref, first⟩ := exists_firstNamed named
      obtain ⟨_, _, shows⟩ := linkedTo ref first
      exact shows.failsOnly
    · have unnamed : ∀ ref ∈ refs, ref.name ≠ check.roleName := fun ref member same => named ⟨ref, member, same⟩
      exact (shows_of_none_named built asks lenient unnamed).failsOnly
  · intro c a b check refs same asks looked lookup subject roles
    have linked := Settings.linkRoles_of_sameButLink same asks looked
    have told (answer : Except Error Decision) :
        c.decisionEvent ⟨a, subject, roles⟩ answer = c.decisionEvent ⟨b, subject, roles⟩ answer := by
      apply decisionEvent_congr
      · exact same.id
      · exact same.attributes
      · rfl
    simp only [authorize, linked, told]

/-- Two references share the name that is asked about, and the request arrives with the link of the second. The modules
are shown that of the first. With the references the other way round the link is not to a declared role. -/
theorem authorize_relinks_stale :
    let registry := (Registry.empty .module).register "gate" (.ofOptions fun _ => .ok (.constant .permit))
    let settings : Settings := ⟨.deny, true, .ofElements ["clerk"]⟩
    let c : Context := ⟨"ledger", [⟨.plain "gate" .required, none⟩], settings, registry, .keep⟩
    let refs : List RoleRef := [⟨"editor", "clerk", none⟩, ⟨"editor", "admin", none⟩]
    let resource := fun (link : Option String) (refs : List RoleRef) =>
      Resource.ofBeanCall { BeanCall.ofBean "Ledger" with roleCheck := some ⟨"editor", link⟩, roleRefs := refs }
    let request := fun (link : Option String) (refs : List RoleRef) =>
      (⟨resource link refs, .anonymous, .empty "Roles"⟩ : Request)
    let lookup : AclLookup := fun _ => .ok none
    ((buildCells c.registry c.cells).run .empty).1.2 = .ok [.constant .permit] ∧
      (∃ linked, linked.roleCheck? = some (⟨"editor", some "clerk"⟩, refs) ∧
        c.Shows lookup (request (some "admin") refs) .empty [.constant .permit] linked) ∧
      c.Refuses lookup (request (some "clerk") refs.reverse) .empty ∧
      (resource (some "admin") refs).SameButLink (resource none refs) ∧
      c.authorize lookup (request (some "admin") refs) = c.authorize lookup (request none refs) := by
  intro registry settings c refs resource request lookup
  have built : ((buildCells c.registry c.cells).run .empty).1.2 = .ok [.constant .permit] := by
    have created : registry.create "gate" .empty = .ofResult (.ok (.constant .permit)) := by
      rw [Registry.create_register, if_pos rfl]
      rfl
    obtain ⟨silent, given⟩ := Registry.silent_of_create created
    have steady : ∀ cell ∈ c.cells, registry.Steady cell.entry.moduleId cell.entry.options :=
      List.forall_mem_singleton.mpr silent.steady
    have faithful : ∀ cell ∈ c.cells, cell.Faithful registry := List.forall_mem_singleton.mpr fun _ kept => nomatch kept
    have built : registry.results [.plain "gate" .required] = .ok [.constant .permit] := Registry.results_single given
    exact (buildCells_run steady faithful .empty).1.trans built
  have first : FirstNamed refs "editor" ⟨"editor", "clerk", none⟩ := ⟨[], _, rfl, rfl, nofun⟩
  have firstReversed : FirstNamed refs.reverse "editor" ⟨"editor", "admin", none⟩ := ⟨[], _, rfl, rfl, nofun⟩
  have asks (link : Option String) (refs : List RoleRef) :
      (resource link refs).roleCheck? = some (⟨"editor", link⟩, refs) := rfl
  have same : (resource (some "admin") refs).SameButLink (resource none refs) :=
    ⟨rfl, rfl, ⟨_, _, refs, asks _ _, asks _ _, rfl⟩, rfl⟩
  refine ⟨built, ?_, ?_, same, ?_⟩
  · obtain ⟨refused, shown⟩ := (authorize_relinks.1 c lookup (request (some "admin") refs) .empty _ _ refs built
      (asks _ _)).1 rfl
    have served : ¬c.Refuses lookup (request (some "admin") refs) .empty := by
      rw [refused]
      rintro (unnamed | ⟨_, ref, firstToo, undeclared⟩)
      · exact unnamed ⟨"editor", "clerk", none⟩ List.mem_cons_self rfl
      · rw [firstToo.link_unique first] at undeclared
        exact absurd undeclared (by decide +kernel)
    obtain ⟨ref, linked, firstToo, linkedTo, shows, _⟩ := shown served
    refine ⟨linked, ?_, shows⟩
    rw [linkedTo.check _ _ (asks _ _), firstToo.link_unique first]
  · refine ((authorize_relinks.1 c lookup (request (some "clerk") refs.reverse) .empty _ _ refs.reverse built
      (asks _ _)).1 rfl).1.mpr (.inr ⟨by decide +kernel, _, firstReversed, by decide +kernel⟩)
  · exact authorize_relinks.2 c _ _ _ refs same (asks _ _) (.inl rfl) lookup .anonymous (.empty "Roles")

end Context

end AccessControl
