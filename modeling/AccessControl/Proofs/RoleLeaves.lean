import AccessControl.Mapping
import AccessControl.SortedMap.Lemmas

namespace AccessControl

/-- What holds of every simple role, and of a group as soon as it holds of its members, holds of every role. -/
theorem Role.memberwise {p : Role → Prop} (simple : ∀ leaf, p (.simple leaf))
    (group : ∀ name members, (∀ m ∈ members, p m) → p (.group name members)) (r : Role) : p r := by
  refine @Role.rec p (fun ms => ∀ m ∈ ms, p m) simple group ?_ ?_ r
  · exact fun _ absent => absurd absent List.not_mem_nil
  · exact fun _ _ here later => List.forall_mem_cons.mpr ⟨here, later⟩

theorem Role.leavesOf_eq_flatMap (ms : List Role) : leavesOf ms = ms.flatMap leaves := by
  induction ms with
  | nil => rfl
  | cons m rest ih => rw [leavesOf, ih, List.flatMap_cons]

theorem Role.leavesOf_append (ms ms' : List Role) : leavesOf (ms ++ ms') = leavesOf ms ++ leavesOf ms' := by
  simp only [leavesOf_eq_flatMap, List.flatMap_append]

theorem Role.mem_leavesOf {ms : List Role} {leaf : SimpleRole} : leaf ∈ leavesOf ms ↔ ∃ m ∈ ms, leaf ∈ m.leaves := by
  rw [leavesOf_eq_flatMap, List.mem_flatMap]

theorem Role.eq_named_of_same {r : Role} {name : String} (same : (r == Role.named name) = true) : r = .named name := by
  cases r with
  | simple a => exact congrArg Role.simple (eq_of_beq same)
  | group n ms => cases same

/-- The role reaches a simple role with this name. -/
def Role.HasLeaf (r : Role) (name : String) : Prop := ∃ leaf ∈ r.leaves, leaf.name = name

theorem Role.mem_leafNames {r : Role} {name : String} : name ∈ r.leafNames.keys ↔ r.HasLeaf name := by
  have elements : name ∈ r.leafNames.keys ↔ name ∈ r.leaves.map (·.name) := SortedSet.mem_elements_ofElements
  exact elements.trans List.mem_map

/-- Some leaf matches a name when the name is reached, or when it is a wildcard and anything is reached at all. -/
theorem Role.any_leaf_matches_iff {r : Role} {name : String} :
    (r.leaves.any fun leaf => leaf.name == name || isWildcard name) = true ↔
      r.HasLeaf name ∨ isWildcard name = true ∧ ∃ other, r.HasLeaf other := by
  simp only [List.any_eq_true, Bool.or_eq_true, beq_iff_eq]
  constructor
  · rintro ⟨leaf, member, same | wildcard⟩
    · exact .inl ⟨leaf, member, same⟩
    · exact .inr ⟨wildcard, leaf.name, leaf, member, rfl⟩
  · rintro (⟨leaf, member, same⟩ | ⟨wildcard, _, leaf, member, _⟩)
    · exact ⟨leaf, member, .inl same⟩
    · exact ⟨leaf, member, .inr wildcard⟩

/-- A test that every member passes through one of its leaves is passed by some member when some leaf passes it. -/
theorem Role.any_eq_any_leavesOf {ms : List Role} {test : Role → Bool} {onLeaf : SimpleRole → Bool}
    (each : ∀ m ∈ ms, test m = m.leaves.any onLeaf) : ms.any test = (leavesOf ms).any onLeaf := by
  rw [leavesOf_eq_flatMap, List.any_flatMap, Bool.eq_iff_iff, List.any_eq_true, List.any_eq_true]
  refine exists_congr fun m => and_congr_right fun member => ?_
  rw [each m member]

theorem Role.membersHold_eq_any (ms : List Role) (wanted : SimpleRole) :
    membersHold ms wanted = ms.any fun m => m.memberHolds wanted := by
  induction ms with
  | nil => rfl
  | cons m rest ih => rw [membersHold, ih, List.any_cons]

/-- The search of a group in its members comes down to its leaves. -/
theorem Role.memberHolds_eq_any (r : Role) (wanted : SimpleRole) :
    r.memberHolds wanted = r.leaves.any fun leaf => leaf.name == wanted.name || isWildcard wanted.name := by
  induction r using memberwise with
  | simple own => rw [memberHolds, leaves, List.any_cons, List.any_nil, Bool.or_false]
  | group name ms ih => rw [memberHolds, membersHold_eq_any, leaves, any_eq_any_leavesOf ih]

namespace RoleGroup

/-- The group reaches a simple role with this name. -/
def HasLeaf (g : RoleGroup) (name : String) : Prop := ∃ leaf ∈ g.leaves, leaf.name = name

theorem mem_leafNames {g : RoleGroup} {name : String} : name ∈ g.leafNames.keys ↔ g.HasLeaf name :=
  Role.mem_leafNames

theorem holdsSimple_eq_any (g : RoleGroup) (wanted : SimpleRole) :
    g.holdsSimple wanted = g.leaves.any fun leaf => leaf.name == wanted.name || isWildcard wanted.name :=
  Role.memberHolds_eq_any g.toRole wanted

/-- Only the name of a simple role counts for holding it. -/
theorem holdsSimple_eq_holds (g : RoleGroup) (wanted : SimpleRole) : g.holdsSimple wanted = g.holds wanted.name := by
  rw [holds, holdsSimple_eq_any, holdsSimple_eq_any]

/-- A role is held when the group reaches it by name, or reaches any role at all and the name is a wildcard. -/
theorem holds_iff {g : RoleGroup} {name : String} :
    g.holds name = true ↔ g.HasLeaf name ∨ isWildcard name = true ∧ ∃ other, g.HasLeaf other := by
  rw [holds, holdsSimple_eq_any]
  exact Role.any_leaf_matches_iff

theorem holdsAny_iff {g other : RoleGroup} :
    g.holdsAny other = true ↔ ∃ name, other.HasLeaf name ∧ g.holds name = true := by
  simp only [holdsAny, holdsSimple_eq_holds, List.any_eq_true]
  constructor
  · rintro ⟨leaf, member, held⟩
    exact ⟨leaf.name, ⟨leaf, member, rfl⟩, held⟩
  · rintro ⟨_, ⟨leaf, member, rfl⟩, held⟩
    exact ⟨leaf, member, held⟩

/-- Every leaf name of the first group is one of the second. Nesting, order, parents and group names do not count. -/
def Within (g h : RoleGroup) : Prop := ∀ name, g.HasLeaf name → h.HasLeaf name

theorem Within.holds {g h : RoleGroup} (within : g.Within h) {name : String} (held : g.holds name = true) :
    h.holds name = true := by
  rw [holds_iff] at held ⊢
  exact held.imp (within name) fun ⟨wildcard, other, leaf⟩ => ⟨wildcard, other, within other leaf⟩

theorem Within.holdsAny {g h other : RoleGroup} (within : g.Within h) (held : g.holdsAny other = true) :
    h.holdsAny other = true := by
  rw [holdsAny_iff] at held ⊢
  obtain ⟨name, leaf, here⟩ := held
  exact ⟨name, leaf, within.holds here⟩

theorem add_name (g : RoleGroup) (r : Role) : (g.add r).2.name = g.name := by
  unfold add
  split <;> rfl

theorem hasLeaf_empty (groupName name : String) : ¬(empty groupName).HasLeaf name :=
  fun ⟨_, member, _⟩ => List.not_mem_nil member

theorem hasLeaf_add_named {g : RoleGroup} {added name : String} :
    (g.add (.named added)).2.HasLeaf name ↔ g.HasLeaf name ∨ name = added := by
  unfold add
  by_cases present : g.hasMember (.named added) = true
  · rw [if_pos present]
    obtain ⟨m, member, same⟩ := List.any_eq_true.mp present
    have leaf : g.HasLeaf added := by
      refine ⟨⟨added, none⟩, Role.mem_leavesOf.mpr ⟨m, member, ?_⟩, rfl⟩
      rw [Role.eq_named_of_same same]
      exact List.mem_cons_self
    exact ⟨.inl, fun either => either.elim id fun same => same ▸ leaf⟩
  · rw [if_neg present]
    have leaves : (RoleGroup.mk g.name (g.members ++ [.named added])).leaves = g.leaves ++ [⟨added, none⟩] :=
      Role.leavesOf_append g.members [.named added]
    simp only [HasLeaf, leaves, List.mem_append, List.mem_singleton, or_and_right, exists_or, exists_eq_left,
      eq_comm (a := added)]

theorem hasLeaf_addNames {g : RoleGroup} {names : List String} {name : String} :
    (g.addNames names).HasLeaf name ↔ g.HasLeaf name ∨ name ∈ names := by
  unfold addNames addAll
  induction names generalizing g with
  | nil => simp only [List.map_nil, List.foldl_nil, List.not_mem_nil, or_false]
  | cons first rest ih => rw [List.map_cons, List.foldl_cons, ih, hasLeaf_add_named, List.mem_cons, or_assoc]

/-- Adding names for one item after another adds exactly the names of all items. -/
theorem hasLeaf_foldl_addNames {α : Type} (names : α → List String) {items : List α} {g : RoleGroup} {name : String} :
    (items.foldl (fun g item => g.addNames (names item)) g).HasLeaf name ↔
      g.HasLeaf name ∨ ∃ item ∈ items, name ∈ names item := by
  induction items generalizing g with
  | nil => simp only [List.foldl_nil, List.not_mem_nil, false_and, exists_false, or_false]
  | cons item rest ih =>
    rw [List.foldl_cons, ih, hasLeaf_addNames, or_assoc]
    simp only [List.mem_cons, exists_eq_or_imp]

end RoleGroup

end AccessControl
