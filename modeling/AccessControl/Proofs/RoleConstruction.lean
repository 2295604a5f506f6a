import AccessControl.Proofs.RoleEquality

namespace AccessControl

/-- No two direct members of the role are equal, and the same holds of every group inside it. -/
inductive Role.Irredundant : Role → Prop
  | simple (leaf : SimpleRole) : Irredundant (simple leaf)
  | group (name : String) {ms : List Role} : Distinct ms → (∀ m ∈ ms, Irredundant m) → Irredundant (group name ms)

theorem Role.irredundant_group_iff {name : String} {ms : List Role} :
    Irredundant (group name ms) ↔ Distinct ms ∧ ∀ m ∈ ms, Irredundant m := by
  constructor
  · rintro ⟨⟩
    rename_i distinct each
    exact ⟨distinct, each⟩
  · rintro ⟨distinct, each⟩
    exact .group name distinct each

namespace RoleGroup

/-- A role that is added stands behind the members, unless it equals one of them. -/
theorem distinct_add {g : RoleGroup} (distinct : Role.Distinct g.members) (r : Role) :
    Role.Distinct (g.add r).2.members := by
  cases present : g.hasMember r with
  | true =>
    rw [add_of_member present]
    exact distinct
  | false =>
    rw [add_of_absent present]
    exact Role.distinct_append_singleton.mpr ⟨distinct, hasMember_eq_false.mp present⟩

/-- What holds of the members and of an added role holds of the members afterwards. -/
theorem forall_mem_add {p : Role → Prop} {g : RoleGroup} {r : Role} (members : ∀ m ∈ g.members, p m) (added : p r) :
    ∀ m ∈ (g.add r).2.members, p m := by
  cases present : g.hasMember r with
  | true =>
    rw [add_of_member present]
    exact members
  | false =>
    rw [add_of_absent present]
    simp only [List.mem_append, List.mem_singleton]
    rintro m (old | rfl)
    · exact members m old
    · exact added

/-- Of several equal roles that are added only the first counts, and none that equals a member. -/
theorem addAll_eq (g : RoleGroup) (roles : List Role) :
    g.addAll roles = { g with members := g.members ++ (roles.filter fun r => !g.hasMember r).eraseDups } := by
  unfold addAll
  induction roles generalizing g with
  | nil => simp
  | cons r rest ih =>
    rw [List.foldl_cons, ih]
    cases present : g.hasMember r with
    | true => simp [add_of_member present, present]
    | false =>
      have both : (fun other => !(RoleGroup.mk g.name (g.members ++ [r])).hasMember other) =
          fun other => !(other == r) && !g.hasMember other := by
        funext other
        simp [hasMember, Bool.and_comm, BEq.comm (a := other)]
      have first : (r :: rest).filter (fun other => !g.hasMember other) =
          r :: rest.filter fun other => !g.hasMember other := by
        rw [List.filter_cons, present]
        rfl
      rw [add_of_absent present, both, first, List.eraseDups_cons, List.filter_filter, List.append_assoc]
      rfl

theorem withRoles_eq (name : String) (roles : List Role) : withRoles name roles = ⟨name, roles.eraseDups⟩ := by
  have nothing : (roles.filter fun r => !(empty name).hasMember r) = roles :=
    List.filter_eq_self.mpr fun _ _ => rfl
  rw [withRoles, addAll_eq, nothing]
  rfl

/-- Making a group adds its roles to an empty one, so what each addition keeps holds of the group. -/
theorem withRoles_induction {p : RoleGroup → Prop} {name : String} {roles : List Role} (start : p (empty name))
    (step : ∀ g, p g → ∀ r ∈ roles, p (g.add r).2) : p (withRoles name roles) := by
  induction roles using List.reverseRecOn with
  | nil => exact start
  | append_singleton roles r ih =>
    rw [withRoles_append_singleton]
    refine step _ (ih fun g holds other member => ?_) r (by simp)
    exact step g holds other (List.mem_append_left _ member)

theorem irredundant_add {g : RoleGroup} {r : Role} (members : g.toRole.Irredundant) (added : r.Irredundant) :
    (g.add r).2.toRole.Irredundant := by
  obtain ⟨distinct, each⟩ := Role.irredundant_group_iff.mp members
  exact .group _ (distinct_add distinct r) (forall_mem_add each added)

theorem irredundant_withRoles (name : String) {roles : List Role} (each : ∀ r ∈ roles, r.Irredundant) :
    (withRoles name roles).toRole.Irredundant := by
  refine withRoles_induction (p := fun g => g.toRole.Irredundant) (.group name .nil nofun) ?_
  intro g members r member
  exact irredundant_add members (each r member)

theorem irredundant_remove {g : RoleGroup} (members : g.toRole.Irredundant) (r : Role) :
    (g.remove r).2.toRole.Irredundant := by
  obtain ⟨distinct, each⟩ := Role.irredundant_group_iff.mp members
  exact .group _ (distinct.filter _) fun m member => each m (List.mem_filter.mp member).1

theorem irredundant_clear (g : RoleGroup) : g.clear.toRole.Irredundant := .group _ .nil nofun

end RoleGroup

end AccessControl
