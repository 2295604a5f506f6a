import AccessControl.Proofs.AclUnion
import AccessControl.Proofs.BuiltinProviders
import AccessControl.Proofs.ChainOrder

namespace AccessControl

namespace Outcome

/-- Neither outcome is an error, and the second speaks at least as much for access. -/
structure Rises (o o' : Outcome) : Prop where
  le : o.favour ≤ o'.favour
  sound : o.error? = none
  sound' : o'.error? = none

theorem rises_self {o : Outcome} (sound : o.error? = none) : o.Rises o := ⟨Nat.le_refl _, sound, sound⟩

theorem rises_permitIf {b b' : Bool} (keeps : b = true → b' = true) : (permitIf b).Rises (permitIf b') := by
  cases b with
  | false => cases b' <;> exact ⟨Nat.zero_le _, rfl, rfl⟩
  | true =>
    rw [keeps rfl]
    exact rises_self rfl

theorem rises_toOutcome {d d' : Decision} (keeps : d = .permit → d' = .permit) : d.toOutcome.Rises d'.toOutcome := by
  cases d with
  | deny => cases d' <;> exact ⟨Nat.zero_le _, rfl, rfl⟩
  | permit =>
    rw [keeps rfl]
    exact rises_self rfl

end Outcome

theorem Decision.ofBool_eq_permit {b : Bool} : ofBool b = .permit ↔ b = true := by
  cases b <;> simp [ofBool]

namespace MemoryStore

/-- What the stored lists decide about a user, with the given roles if any. -/
def decision (store : MemoryStore) (resource : ResourceId) (user : String) (roles : Option RoleGroup)
    (requested : Permission) : Decision :=
  match (store.get? resource).bind (·.effectivePermission user roles) with
  | none => .deny
  | some granted => .ofBool (granted.contains requested)

theorem decide_lookup (store : MemoryStore) (resource : ResourceId) (user : String) (roles : Option RoleGroup)
    (requested : Permission) :
    (AclStore.memory store).lookup.decide resource user roles requested =
      .ok (store.decision resource user roles requested) :=
  AclLookup.decide_of_answer rfl user roles requested

variable {store : MemoryStore} {resource : ResourceId} {user : String} {requested : Permission}

theorem decision_eq_permit {roles : Option RoleGroup} :
    store.decision resource user roles requested = .permit ↔ ∃ acl granted, store.get? resource = some acl ∧
      acl.effectivePermission user roles = some granted ∧ granted.contains requested = true := by
  unfold decision
  cases store.get? resource with
  | none => simp
  | some acl =>
    cases effective : acl.effectivePermission user roles with
    | none => simp [effective]
    | some granted => simp [effective, Decision.ofBool_eq_permit]

theorem decision_of_within {g h : RoleGroup} (within : g.Within h)
    (permits : store.decision resource user (some g) requested = .permit) :
    store.decision resource user (some h) requested = .permit := by
  obtain ⟨acl, granted, stored, effective, contained⟩ := decision_eq_permit.mp permits
  have more : Permission.AtMost (acl.effectivePermission user (some g)) (acl.effectivePermission user (some h)) :=
    Acl.effectivePermission_mono fun _ member speaks => ⟨member, Acl.concerns_of_within within speaks⟩
  obtain ⟨granted', effective', contained'⟩ := more granted effective
  exact decision_eq_permit.mpr ⟨acl, granted', stored, effective', Permission.contains_trans contained' contained⟩

end MemoryStore

section Layers

variable {g h : RoleGroup} (within : g.Within h)

include within

theorem BeanPolicy.rises_decide (policy : BeanPolicy) (call : BeanCall) :
    (policy.decide call g).Rises (policy.decide call h) := by
  unfold decide
  cases call.roleCheck with
  | some check => exact Outcome.rises_permitIf within.holds
  | none =>
    simp only
    split_ifs
    · exact Outcome.rises_self rfl
    · exact Outcome.rises_self rfl
    · exact Outcome.rises_permitIf id
    · exact Outcome.rises_permitIf within.holdsAny

theorem WebRequest.rises_decide (request : WebRequest) : (request.decide g).Rises (request.decide h) := by
  unfold decide
  cases request.roleCheck with
  | some check => exact Outcome.rises_permitIf within.holds
  | none =>
    simp only
    split_ifs
    · exact Outcome.rises_self rfl
    · exact Outcome.rises_self rfl
    · exact Outcome.rises_self rfl
    · exact Outcome.rises_self rfl
    · exact Outcome.rises_permitIf within.holdsAny

theorem AclPolicy.rises_decide (policy : AclPolicy) (store : MemoryStore) (resource : ResourceId)
    (requested : Permission) (subject : Subject) :
    (policy.decide (AclStore.memory store).lookup resource requested subject g).Rises
      (policy.decide (AclStore.memory store).lookup resource requested subject h) := by
  unfold decide
  cases subject.caller with
  | none => exact Outcome.rises_self rfl
  | some caller =>
    simp only [MemoryStore.decide_lookup, Outcome.ofResult]
    cases policy.checkRoles with
    | false => exact Outcome.rises_toOutcome id
    | true => exact Outcome.rises_toOutcome (MemoryStore.decision_of_within within)

/-- As long as the stored lists can be reached and stay the same, a module of the library never fails, and it speaks at
least as much for access when more roles are held. -/
theorem Module.Layer.rises_answer {module : Module} (layer : module.Layer) (store : MemoryStore) (resource : Resource)
    (subject : Subject) :
    (module.answer (AclStore.memory store).lookup ⟨resource, subject, g⟩).Rises
      (module.answer (AclStore.memory store).lookup ⟨resource, subject, h⟩) := by
  obtain ⟨id, detail, attributes⟩ := resource
  cases layer with
  | constant decision => exact Outcome.rises_toOutcome fun permits => permits
  | bean policy =>
    cases detail with
    | ejb call => exact policy.rises_decide within call
    | generic | web _ | acl _ => exact Outcome.rises_self rfl
  | web =>
    cases detail with
    | web request => exact request.rises_decide within
    | generic | ejb _ | acl _ => exact Outcome.rises_self rfl
  | acl policy =>
    cases detail with
    | acl requested => exact policy.rises_decide within store id requested subject
    | generic | ejb _ | web _ => exact Outcome.rises_self rfl
  | delegating bean acl =>
    cases detail with
    | generic => exact Outcome.rises_self rfl
    | ejb call => exact bean.rises_decide within call
    | web request => exact request.rises_decide within
    | acl requested =>
      cases acl with
      | none => exact Outcome.rises_self rfl
      | some policy => exact policy.rises_decide within store id requested subject

end Layers

end AccessControl
