import AccessControl.Proofs.AclUnion
import AccessControl.Proofs.BuiltinProviders
import AccessControl.Proofs.ManagerAudit

namespace AccessControl

/-- Requests that no module of the library can tell apart. -/
structure Request.LooksLike (r s : Request) : Prop where
  resource : r.resource = s.resource
  caller : r.subject.caller = s.subject.caller
  leafNames : r.roles.leafNames = s.roles.leafNames

section Roles

variable {g h : RoleGroup} (leaves : g.leafNames = h.leafNames)

include leaves

theorem RoleGroup.within_of_leafNames : g.Within h := fun _ leaf =>
  mem_leafNames.mp (leaves ▸ mem_leafNames.mpr leaf)

theorem RoleGroup.holds_of_leafNames : g.holds = h.holds := by
  funext name
  rw [Bool.eq_iff_iff]
  exact ⟨(within_of_leafNames leaves).holds, (within_of_leafNames leaves.symm).holds⟩

theorem RoleGroup.holdsAny_of_leafNames : g.holdsAny = h.holdsAny := by
  funext other
  rw [Bool.eq_iff_iff]
  exact ⟨(within_of_leafNames leaves).holdsAny, (within_of_leafNames leaves.symm).holdsAny⟩

theorem BeanPolicy.decide_of_leafNames (policy : BeanPolicy) (call : BeanCall) :
    policy.decide call g = policy.decide call h := by
  unfold decide
  rw [RoleGroup.holds_of_leafNames leaves, RoleGroup.holdsAny_of_leafNames leaves]

theorem WebRequest.decide_of_leafNames (request : WebRequest) : request.decide g = request.decide h := by
  unfold decide
  rw [RoleGroup.holds_of_leafNames leaves, RoleGroup.holdsAny_of_leafNames leaves]

theorem AclPolicy.decide_of_leafNames (policy : AclPolicy) (lookup : AclLookup) (resource : ResourceId)
    (requested : Permission) {a b : Subject} (caller : a.caller = b.caller) :
    policy.decide lookup resource requested a g = policy.decide lookup resource requested b h := by
  have speaks (user : String) : Acl.concerns user (some g) = Acl.concerns user (some h) := by
    funext e
    unfold Acl.concerns
    simp only [Option.any_some, RoleGroup.holds_of_leafNames leaves]
  unfold decide
  rw [caller]
  cases b.caller with
  | none => rfl
  | some user =>
    cases policy.checkRoles with
    | false => rfl
    | true => simp only [if_true, AclLookup.decide, Acl.effectivePermission, speaks]

end Roles

/-- A module of the library sees nothing of a request but the resource, the caller and the leaf names of the roles,
whatever lists are stored. -/
theorem Module.Layer.answer_of_looksLike {module : Module} (layer : module.Layer) (lookup : AclLookup) {r s : Request}
    (alike : r.LooksLike s) : module.answer lookup r = module.answer lookup s := by
  obtain ⟨resource, a, g⟩ := r
  obtain ⟨_, b, h⟩ := s
  obtain ⟨same, caller, leaves⟩ := alike
  cases same
  obtain ⟨id, detail, attributes⟩ := resource
  cases layer with
  | constant decision => rfl
  | bean policy =>
    cases detail with
    | ejb call => exact policy.decide_of_leafNames leaves call
    | generic | web _ | acl _ => rfl
  | web =>
    cases detail with
    | web request => exact request.decide_of_leafNames leaves
    | generic | ejb _ | acl _ => rfl
  | acl policy =>
    cases detail with
    | acl requested => exact policy.decide_of_leafNames leaves lookup id requested caller
    | generic | ejb _ | web _ => rfl
  | delegating bean acl =>
    cases detail with
    | generic => rfl
    | ejb call => exact bean.decide_of_leafNames leaves call
    | web request => exact request.decide_of_leafNames leaves
    | acl requested =>
      cases acl with
      | none => rfl
      | some policy => exact policy.decide_of_leafNames leaves lookup id requested caller

namespace Context

variable {c : Context}
  (layers : ∀ modules, c.registry.results c.entries = .ok modules → ∀ module ∈ modules, module.Layer)
  (lookup : AclLookup) {r s : Request} (alike : r.LooksLike s)

include layers alike

theorem answers_of_looksLike {modules : List Module} (built : c.registry.results c.entries = .ok modules)
    (resource : Resource) :
    modules.map (·.answer lookup { r with resource }) = modules.map (·.answer lookup { s with resource }) :=
  List.map_congr_left fun module member =>
    (layers modules built module member).answer_of_looksLike lookup ⟨rfl, alike.caller, alike.leafNames⟩

theorem verdict_of_looksLike : c.verdict lookup r = c.verdict lookup s := by
  unfold verdict
  rw [alike.resource]
  cases built : c.registry.results c.entries with
  | error e => rfl
  | ok modules =>
    simp only [bind, Except.bind]
    cases c.settings.linkRoles s.resource with
    | error e => rfl
    | ok resource => simp only [outcomes_eq, answers_of_looksLike layers lookup alike built resource]

theorem report_of_looksLike : c.report lookup r = c.report lookup s := by
  have told (answer : Except Error Decision) : c.decisionEvent r answer = c.decisionEvent s answer := by
    simp only [decisionEvent, callerName, alike.resource, alike.caller]
  unfold report
  rw [verdict_of_looksLike layers lookup alike, told, alike.resource]
  cases built : c.registry.results c.entries with
  | error e => rfl
  | ok modules =>
    cases c.settings.linkRoles s.resource with
    | error e => rfl
    | ok resource =>
      simp only [consulted, outcomes_eq, answers_of_looksLike layers lookup alike built resource]

end Context

end AccessControl
