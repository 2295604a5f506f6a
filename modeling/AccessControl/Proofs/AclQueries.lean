import AccessControl.Proofs.AclHistory
import AccessControl.Proofs.AclUnion

namespace AccessControl

/-- No two bits of the set are different. The empty set has none. -/
def Permission.AtMostOneBit (p : Permission) : Prop := ∀ i j, p.Has i → p.Has j → i = j

namespace Acl

variable {acl acl' : Acl} {user : String} {roles : Option RoleGroup} {requested : Permission}

/-- A list with the same entries, in whatever order and number, grants the same in effect. -/
theorem effectivePermission_congr (same : ∀ e, e ∈ acl.entries ↔ e ∈ acl'.entries) :
    acl.effectivePermission user roles = acl'.effectivePermission user roles :=
  Permission.AtMost.antisymm (effectivePermission_mono fun e member speaks => ⟨(same e).mp member, speaks⟩)
    (effectivePermission_mono fun e member speaks => ⟨(same e).mpr member, speaks⟩)

theorem mem_add {e : AclEntry} (new : AclEntry) (member : e ∈ acl.entries) : e ∈ (acl.add new).2.entries := by
  rcases acl.add_cases new with ⟨_, run⟩ | ⟨_, run⟩
  · rw [run]
    exact member
  · rw [run]
    exact List.mem_append_left [new] member

theorem mem_of_mem_remove {identity : AclIdentity} {e : AclEntry} (kept : e ∈ (acl.remove identity).2.entries) :
    e ∈ acl.entries := (List.mem_filter.mp kept).1

/-- Whether a question about the user alone, or one about the roles alone, finds the request granted. -/
def PointGranted (acl : Acl) (user : String) (roles : Option RoleGroup) (requested : Permission) : Prop :=
  acl.isGranted requested (.user user) = true ∨ ∃ group, roles = some group ∧ acl.isGrantedToRoles requested group = true

theorem isGranted_iff {identity : AclIdentity} :
    acl.isGranted requested identity = true ↔ ∃ e, acl.entry? identity = some e ∧ e.grants requested = true := by
  rw [isGranted, Option.any_eq_true]

theorem isGrantedToRoles_iff {group : RoleGroup} : acl.isGrantedToRoles requested group = true ↔
    ∃ e ∈ acl.entries, (∃ name, e.identity = .role name ∧ group.holds name = true) ∧ e.grants requested = true := by
  rw [isGrantedToRoles, List.any_eq_true]
  refine exists_congr fun e => and_congr_right fun _ => ?_
  cases e.identity <;> simp

/-- A question that finds a request granted finds one entry that grants all of it. -/
theorem PointGranted.exists_entry (granted : acl.PointGranted user roles requested) :
    ∃ e ∈ acl.entries, concerns user roles e = true ∧ e.grants requested = true := by
  rcases granted with own | ⟨group, given, held⟩
  · obtain ⟨e, found, grants⟩ := isGranted_iff.mp own
    have identity : e.identity = .user user := by simpa using List.find?_some found
    exact ⟨e, List.mem_of_find?_eq_some found, concerns_iff.mpr (.inl identity), grants⟩
  · obtain ⟨e, member, ⟨name, identity, holds⟩, grants⟩ := isGrantedToRoles_iff.mp held
    exact ⟨e, member, concerns_iff.mpr (.inr ⟨group, name, given, identity, holds⟩), grants⟩

/-- Where no identity is repeated, an entry that grants a request is found by one of the questions. -/
theorem Distinct.pointGranted (distinct : acl.Distinct) {e : AclEntry} (member : e ∈ acl.entries)
    (speaks : concerns user roles e = true) (grants : e.grants requested = true) :
    acl.PointGranted user roles requested := by
  rcases concerns_iff.mp speaks with identity | ⟨group, name, given, identity, holds⟩
  · exact .inl (isGranted_iff.mpr ⟨e, distinct.entry?_eq_some.mpr ⟨member, identity⟩, grants⟩)
  · exact .inr ⟨group, given, isGrantedToRoles_iff.mpr ⟨e, member, ⟨name, identity, holds⟩, grants⟩⟩

theorem PointGranted.effective (granted : acl.PointGranted user roles requested) :
    ∃ p, acl.effectivePermission user roles = some p ∧ p.contains requested = true := by
  obtain ⟨e, member, speaks, grants⟩ := granted.exists_entry
  obtain ⟨p, effective, contained⟩ := exists_effectivePermission member speaks
  exact ⟨p, effective, Permission.contains_trans contained grants⟩

/-- A single bit of the union comes from one entry, which grants it alone. -/
theorem exists_entry_of_effective (single : requested.AtMostOneBit) {p : Permission}
    (effective : acl.effectivePermission user roles = some p) (contained : p.contains requested = true) :
    ∃ e ∈ acl.entries, concerns user roles e = true ∧ e.grants requested = true := by
  by_cases nothing : requested = .empty
  · have spoken : ¬∀ e ∈ acl.entries, ¬concerns user roles e = true := fun nobody => by
      rw [effectivePermission_eq_none.mpr nobody] at effective
      cases effective
    simp only [not_forall, not_not, exists_prop] at spoken
    obtain ⟨e, member, speaks⟩ := spoken
    exact ⟨e, member, speaks, nothing ▸ e.permission.contains_empty⟩
  · obtain ⟨i, bit⟩ := Permission.exists_has nothing
    obtain ⟨e, member, speaks, given⟩ :=
      (effectivePermission_has effective).mp (Permission.contains_iff.mp contained i bit)
    refine ⟨e, member, speaks, Permission.contains_iff.mpr fun j other => ?_⟩
    exact single i j bit other ▸ given

/-- What is effectively granted is a union that the order of the entries does not matter to. More entries, a group where
there was none and more leaf names in a group never take anything away, and a removal never adds anything. The union
grants whatever one of the two point questions grants. As long as no identity is repeated, it grants a single bit, or is
there at all, only if one of them says so. -/
theorem effective_union_and_queries (user : String) :
    (∀ (acl acl' : Acl) roles, acl.entries.Perm acl'.entries →
      acl.effectivePermission user roles = acl'.effectivePermission user roles) ∧
    (∀ (acl : Acl) roles e,
      Permission.AtMost (acl.effectivePermission user roles) ((acl.add e).2.effectivePermission user roles)) ∧
    (∀ (acl : Acl) group,
      Permission.AtMost (acl.effectivePermission user none) (acl.effectivePermission user (some group))) ∧
    (∀ (acl : Acl) (group larger : RoleGroup), group.leafNames.keys ⊆ larger.leafNames.keys →
      Permission.AtMost (acl.effectivePermission user (some group)) (acl.effectivePermission user (some larger))) ∧
    (∀ (acl : Acl) roles identity,
      Permission.AtMost ((acl.remove identity).2.effectivePermission user roles) (acl.effectivePermission user roles)) ∧
    (∀ (acl : Acl) roles requested, acl.PointGranted user roles requested →
      ∃ p, acl.effectivePermission user roles = some p ∧ p.contains requested = true) ∧
    (∀ (acl : Acl) roles requested, acl.Distinct → requested.AtMostOneBit →
      ((∃ p, acl.effectivePermission user roles = some p ∧ p.contains requested = true) ↔
        acl.PointGranted user roles requested)) := by
  refine ⟨fun acl acl' roles perm => effectivePermission_congr fun e => perm.mem_iff,
    fun acl roles e => effectivePermission_mono fun _ member speaks => ⟨mem_add e member, speaks⟩,
    fun acl group => effectivePermission_mono fun e member speaks => ⟨member, ?_⟩,
    fun acl group larger names => effectivePermission_mono fun e member speaks => ⟨member, ?_⟩,
    fun acl roles identity => effectivePermission_mono fun _ kept speaks => ⟨mem_of_mem_remove kept, speaks⟩,
    fun acl roles requested granted => granted.effective,
    fun acl roles requested distinct single => ⟨?_, fun granted => granted.effective⟩⟩
  · rcases concerns_iff.mp speaks with own | ⟨_, _, impossible, _⟩
    · exact concerns_iff.mpr (.inl own)
    · cases impossible
  · have within : group.Within larger := fun name leaf =>
      RoleGroup.mem_leafNames.mp (names (RoleGroup.mem_leafNames.mpr leaf))
    exact concerns_of_within within speaks
  · rintro ⟨p, effective, contained⟩
    obtain ⟨e, member, speaks, grants⟩ := exists_entry_of_effective single effective contained
    exact distinct.pointGranted member speaks grants

/-- A role inside another one and a wildcard entry grant a bit each, and the user's entry a bit without a name. Each is
found by a question of its own. Two bits together are granted in effect, though no question finds one entry for both; and
of two entries for the user only the first is asked for. -/
theorem effective_union_and_queries_two_bits :
    let own : AclEntry := ⟨.user "ann", ⟨16⟩⟩
    let nested : AclEntry := ⟨.role "clerk", ⟨1⟩⟩
    let anyone : AclEntry := ⟨.role "**", ⟨2⟩⟩
    let acl : Acl := ⟨⟨.acl, "report"⟩, [own, nested, anyone]⟩
    let twice : Acl := ⟨⟨.acl, "report"⟩, [own, ⟨.user "ann", ⟨2⟩⟩]⟩
    let group : RoleGroup := ⟨"staff", [.group "inner" [.named "clerk"]]⟩
    let larger : RoleGroup := ⟨"all", [.named "auditor", .named "clerk"]⟩
    group.leafNames.keys ⊆ larger.leafNames.keys ∧
      Permission.AtMost (acl.effectivePermission "ann" (some group)) (acl.effectivePermission "ann" (some larger)) ∧
      [anyone, own, nested].Perm acl.entries ∧
      (⟨acl.resource, [anyone, own, nested]⟩ : Acl).effectivePermission "ann" (some group) = some ⟨19⟩ ∧
      acl.Distinct ∧ acl.PointGranted "ann" (some group) ⟨2⟩ ∧
      (∃ p, acl.effectivePermission "ann" (some group) = some p ∧ p.contains ⟨2⟩ = true) ∧
      (∃ p, acl.effectivePermission "ann" (some group) = some p ∧ p.contains ⟨3⟩ = true) ∧
      ¬acl.PointGranted "ann" (some group) ⟨3⟩ ∧
      (∃ p, twice.effectivePermission "ann" none = some p ∧ p.contains ⟨2⟩ = true) ∧
      ¬twice.PointGranted "ann" none ⟨2⟩ := by
  intro own nested anyone acl twice group larger
  obtain ⟨order, _, _, widening, _, _, queries⟩ := effective_union_and_queries "ann"
  have names : group.leafNames.keys ⊆ larger.leafNames.keys := by decide
  have perm : [anyone, own, nested].Perm acl.entries := by decide
  have distinct : acl.Distinct := by decide
  have single : Permission.AtMostOneBit ⟨2⟩ := by
    have same : (⟨2⟩ : Permission) = .single 1 := by rfl
    rw [same]
    intro i j first second
    exact ((Permission.has_single (by decide)).mp first).symm.trans ((Permission.has_single (by decide)).mp second)
  have effective : acl.effectivePermission "ann" (some group) = some ⟨19⟩ := by decide
  have granted : ∃ p, acl.effectivePermission "ann" (some group) = some p ∧ p.contains ⟨2⟩ = true :=
    ⟨⟨19⟩, effective, by decide⟩
  refine ⟨names, widening acl group larger names, perm, ?_, distinct,
    (queries acl (some group) ⟨2⟩ distinct single).mp granted, granted, ⟨⟨19⟩, effective, by decide⟩, ?_,
    ⟨⟨18⟩, by decide, by decide⟩, ?_⟩
  · rw [order _ acl (some group) perm]
    exact effective
  · rintro (alone | ⟨_, ⟨⟩, held⟩)
    · revert alone
      decide
    · revert held
      decide
  · rintro (alone | ⟨_, impossible, _⟩)
    · revert alone
      decide
    · cases impossible

end Acl

end AccessControl
