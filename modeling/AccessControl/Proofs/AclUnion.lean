import AccessControl.Acl.Store
import AccessControl.Proofs.PermissionBits
import AccessControl.Proofs.RoleLeaves

namespace AccessControl

namespace Acl

theorem concerns_iff {user : String} {roles : Option RoleGroup} {e : AclEntry} :
    concerns user roles e = true ↔ e.identity = .user user ∨
      ∃ group name, roles = some group ∧ e.identity = .role name ∧ group.holds name = true := by
  unfold concerns
  cases e.identity with
  | user name => simp
  | role name => cases roles <;> simp

theorem effectivePermission_eq_none {acl : Acl} {user : String} {roles : Option RoleGroup} :
    acl.effectivePermission user roles = none ↔ ∀ e ∈ acl.entries, ¬concerns user roles e = true := by
  rw [← List.filter_eq_nil_iff, ← List.map_eq_nil_iff (f := (·.permission))]
  unfold effectivePermission
  cases (acl.entries.filter (concerns user roles)).map (·.permission) with
  | nil => exact ⟨fun _ => rfl, fun _ => rfl⟩
  | cons first rest => exact ⟨nofun, nofun⟩

/-- A user effectively has the bits of all the entries that speak of the user or of a role held. -/
theorem effectivePermission_has {acl : Acl} {user : String} {roles : Option RoleGroup} {p : Permission}
    (effective : acl.effectivePermission user roles = some p) {i : Nat} :
    p.Has i ↔ ∃ e ∈ acl.entries, concerns user roles e = true ∧ e.permission.Has i := by
  have listed : p.Has i ↔ ∃ q ∈ (acl.entries.filter (concerns user roles)).map (·.permission), q.Has i := by
    unfold effectivePermission at effective
    cases permissions : (acl.entries.filter (concerns user roles)).map (·.permission) with
    | nil =>
      rw [permissions] at effective
      cases effective
    | cons first rest =>
      rw [permissions] at effective
      cases effective
      exact Permission.has_foldl_union
  rw [listed]
  simp only [List.mem_map, List.mem_filter]
  constructor
  · rintro ⟨_, ⟨e, ⟨member, speaks⟩, rfl⟩, bit⟩
    exact ⟨e, member, speaks, bit⟩
  · rintro ⟨e, member, speaks, bit⟩
    exact ⟨e.permission, ⟨e, ⟨member, speaks⟩, rfl⟩, bit⟩

/-- A single entry that speaks of a user is granted to the user as a whole. -/
theorem exists_effectivePermission {acl : Acl} {user : String} {roles : Option RoleGroup} {e : AclEntry}
    (member : e ∈ acl.entries) (speaks : concerns user roles e = true) :
    ∃ p, acl.effectivePermission user roles = some p ∧ p.contains e.permission = true := by
  cases effective : acl.effectivePermission user roles with
  | none => exact absurd speaks (effectivePermission_eq_none.mp effective e member)
  | some p =>
    refine ⟨p, rfl, Permission.contains_iff.mpr fun i bit => ?_⟩
    exact (effectivePermission_has effective).mpr ⟨e, member, speaks, bit⟩

/-- A user of whom more entries speak, in one list or in two, has at least as much. -/
theorem effectivePermission_mono {acl acl' : Acl} {user : String} {roles roles' : Option RoleGroup}
    (more : ∀ e ∈ acl.entries, concerns user roles e = true → e ∈ acl'.entries ∧ concerns user roles' e = true) :
    Permission.AtMost (acl.effectivePermission user roles) (acl'.effectivePermission user roles') := by
  intro p effective
  cases effective' : acl'.effectivePermission user roles' with
  | none =>
    have nobody : acl.effectivePermission user roles = none := effectivePermission_eq_none.mpr fun e member speaks => by
      obtain ⟨member', speaks'⟩ := more e member speaks
      exact effectivePermission_eq_none.mp effective' e member' speaks'
    rw [nobody] at effective
    cases effective
  | some p' =>
    refine ⟨p', rfl, Permission.contains_iff.mpr fun i bit => ?_⟩
    obtain ⟨e, member, speaks, bit⟩ := (effectivePermission_has effective).mp bit
    obtain ⟨member', speaks'⟩ := more e member speaks
    exact (effectivePermission_has effective').mpr ⟨e, member', speaks', bit⟩

theorem concerns_of_within {g h : RoleGroup} (within : g.Within h) {user : String} {e : AclEntry}
    (speaks : concerns user (some g) e = true) : concerns user (some h) e = true := by
  unfold concerns at speaks ⊢
  cases identity : e.identity with
  | user name =>
    rw [identity] at speaks
    exact speaks
  | role name =>
    rw [identity] at speaks
    exact within.holds speaks

end Acl

/-- A decision on a list that could be looked up. -/
theorem AclLookup.decide_of_answer {lookup : AclLookup} {resource : ResourceId} {found : Option Acl}
    (answer : lookup resource = .ok found) (user : String) (roles : Option RoleGroup) (requested : Permission) :
    lookup.decide resource user roles requested =
      .ok (match found.bind (·.effectivePermission user roles) with
        | none => .deny
        | some granted => .ofBool (granted.contains requested)) := by
  unfold decide
  rw [answer]
  change (match found.bind (·.effectivePermission user roles) with
    | none => pure .deny
    | some granted => pure (.ofBool (granted.contains requested)) : Except Error Decision) = _
  cases found.bind (·.effectivePermission user roles) <;> rfl

end AccessControl
