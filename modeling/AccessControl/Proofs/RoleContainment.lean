import AccessControl.Proofs.RoleLeaves

namespace AccessControl

namespace Role

theorem someAdmits_eq_any (ms : List Role) (candidate : SimpleRole) :
    someAdmits ms candidate = ms.any fun m => m.admits candidate := by
  induction ms with
  | nil => rfl
  | cons m rest ih => rw [someAdmits, ih, List.any_cons]

theorem containsEach_eq_all (r : Role) (candidates : List Role) :
    r.containsEach candidates = candidates.all fun c => r.containsAll c := by
  induction candidates with
  | nil => rfl
  | cons c rest ih => rw [containsEach, ih, List.all_cons]

/-- Walking down the members finds what looking through the leaves finds. -/
theorem admits_eq_any (r : Role) (candidate : SimpleRole) :
    r.admits candidate = r.leaves.any fun leaf => leaf.name == candidate.name || isWildcard candidate.name := by
  induction r using memberwise with
  | simple own => rw [admits, leaves, List.any_cons, List.any_nil, Bool.or_false]
  | group name ms ih => rw [admits, someAdmits_eq_any, leaves, any_eq_any_leavesOf ih]

/-- However the second role is nested, exactly its leaves have to be admitted. -/
theorem containsAll_eq_all (r c : Role) : r.containsAll c = c.leaves.all r.admits := by
  induction c using memberwise with
  | simple candidate => rw [containsAll, leaves, List.all_cons, List.all_nil, Bool.and_true]
  | group name ms ih =>
    rw [containsAll, containsEach_eq_all, leaves, leavesOf_eq_flatMap, List.all_flatMap]
    rw [Bool.eq_iff_iff, List.all_eq_true, List.all_eq_true]
    refine forall₂_congr fun m member => ?_
    rw [ih m member]

theorem admits_iff {r : Role} {candidate : SimpleRole} :
    r.admits candidate = true ↔
      r.HasLeaf candidate.name ∨ isWildcard candidate.name = true ∧ ∃ other, r.HasLeaf other := by
  rw [admits_eq_any]
  exact any_leaf_matches_iff

theorem containsAll_iff {a c : Role} :
    a.containsAll c = true ↔
      ∀ name, c.HasLeaf name → a.HasLeaf name ∨ isWildcard name = true ∧ ∃ other, a.HasLeaf other := by
  rw [containsAll_eq_all, List.all_eq_true]
  constructor
  · rintro each name ⟨leaf, member, rfl⟩
    exact admits_iff.mp (each leaf member)
  · intro each leaf member
    exact admits_iff.mpr (each leaf.name ⟨leaf, member, rfl⟩)

theorem containsAll_refl (a : Role) : a.containsAll a = true :=
  containsAll_iff.mpr fun _ leaf => .inl leaf

/-- A role that contains another reaches something as soon as the other does. -/
theorem exists_leaf_of_containsAll {a c : Role} (contains : a.containsAll c = true) (leaf : ∃ name, c.HasLeaf name) :
    ∃ name, a.HasLeaf name := by
  obtain ⟨name, leaf⟩ := leaf
  rcases containsAll_iff.mp contains name leaf with here | ⟨_, other⟩
  · exact ⟨name, here⟩
  · exact other

theorem containsAll_trans {a b c : Role} (first : a.containsAll b = true) (second : b.containsAll c = true) :
    a.containsAll c = true := by
  refine containsAll_iff.mpr fun name leaf => ?_
  rcases containsAll_iff.mp second name leaf with inB | ⟨wildcard, other⟩
  · exact containsAll_iff.mp first name inB
  · exact .inr ⟨wildcard, exists_leaf_of_containsAll first other⟩

theorem hasLeaf_of_containsAll {a c : Role} (contains : a.containsAll c = true) {name : String}
    (plain : isWildcard name = false) (leaf : c.HasLeaf name) : a.HasLeaf name := by
  rcases containsAll_iff.mp contains name leaf with here | ⟨wildcard, _⟩
  · exact here
  · rw [plain] at wildcard
    cases wildcard

theorem containsAll_of_hasLeaf {a c : Role} (names : ∀ name, isWildcard name = false → c.HasLeaf name → a.HasLeaf name)
    (inhabited : (∃ name, c.HasLeaf name) → ∃ name, a.HasLeaf name) : a.containsAll c = true := by
  refine containsAll_iff.mpr fun name leaf => ?_
  cases wildcard : isWildcard name with
  | false => exact .inl (names name wildcard leaf)
  | true => exact .inr ⟨rfl, inhabited ⟨name, leaf⟩⟩

/-- Two roles contain each other when they reach the same names, wildcards apart, and neither is alone in reaching
nothing. -/
theorem containsAll_both_iff {a c : Role} :
    a.containsAll c = true ∧ c.containsAll a = true ↔
      (∀ name, isWildcard name = false → (a.HasLeaf name ↔ c.HasLeaf name)) ∧
        ((∃ name, a.HasLeaf name) ↔ ∃ name, c.HasLeaf name) := by
  constructor
  · rintro ⟨down, up⟩
    refine ⟨fun name plain => ⟨hasLeaf_of_containsAll up plain, hasLeaf_of_containsAll down plain⟩, ?_⟩
    exact ⟨exists_leaf_of_containsAll up, exists_leaf_of_containsAll down⟩
  · rintro ⟨names, inhabited⟩
    have down := containsAll_of_hasLeaf (fun name plain => (names name plain).mpr) inhabited.mpr
    have up := containsAll_of_hasLeaf (fun name plain => (names name plain).mp) inhabited.mp
    exact ⟨down, up⟩

theorem containsAll_iff_of_no_wildcard {a c : Role} (plain : ∀ name, c.HasLeaf name → isWildcard name = false) :
    a.containsAll c = true ↔ ∀ name, c.HasLeaf name → a.HasLeaf name := by
  constructor
  · intro contains name leaf
    exact hasLeaf_of_containsAll contains (plain name leaf) leaf
  · intro names
    exact containsAll_iff.mpr fun name leaf => .inl (names name leaf)

theorem leafNames_ne_nil {r : Role} : r.leafNames.keys ≠ [] ↔ ∃ name, r.HasLeaf name := by
  constructor
  · intro nonempty
    obtain ⟨name, member⟩ := List.exists_mem_of_ne_nil _ nonempty
    exact ⟨name, mem_leafNames.mp member⟩
  · rintro ⟨name, leaf⟩
    exact List.ne_nil_of_mem (mem_leafNames.mpr leaf)

end Role

theorem RoleGroup.holds_eq_containsAll (g : RoleGroup) (role : SimpleRole) :
    g.holds role.name = g.containsAll (.simple role) := by
  rw [containsAll, Role.containsAll, Role.admits_eq_any, holds, holdsSimple_eq_any]
  rfl

theorem RoleGroup.leafNames_ne_nil {g : RoleGroup} : g.leafNames.keys ≠ [] ↔ ∃ name, g.HasLeaf name :=
  Role.leafNames_ne_nil

theorem RoleGroup.holdsAny_iff_shared {g h : RoleGroup} :
    g.holdsAny h = true ↔ (∃ name, h.HasLeaf name ∧ g.HasLeaf name) ∨
      (∃ name, g.HasLeaf name) ∧ ∃ name, h.HasLeaf name ∧ isWildcard name = true := by
  simp only [holdsAny_iff, holds_iff, and_or_left, exists_or]
  refine or_congr_right ⟨?_, ?_⟩
  · rintro ⟨name, leaf, wildcard, other⟩
    exact ⟨other, name, leaf, wildcard⟩
  · rintro ⟨other, name, leaf, wildcard⟩
    exact ⟨name, leaf, wildcard, other⟩

/-- All questions about containment are answered by the leaf names of the two sides, whatever the nesting, the group
names and the parents. A wildcard is contained by everything that reaches a role at all. Holding a wildcard adds
nothing else: among other names a role contains exactly those it reaches. -/
theorem Role.containment_by_leafNames :
    (∀ a c : Role, a.containsAll c = true ↔
      ∀ name ∈ c.leafNames.keys, name ∈ a.leafNames.keys ∨ isWildcard name = true ∧ a.leafNames.keys ≠ []) ∧
    (∀ (g : RoleGroup) (name : String), g.holds name = g.containsAll (.named name)) ∧
    (∀ g h : RoleGroup, g.holdsAny h = true ↔
      (∃ name ∈ h.leafNames.keys, name ∈ g.leafNames.keys) ∨
        g.leafNames.keys ≠ [] ∧ ∃ name ∈ h.leafNames.keys, isWildcard name = true) ∧
    (∀ a : Role, a.containsAll a = true) ∧
    (∀ a b c : Role, a.containsAll b = true → b.containsAll c = true → a.containsAll c = true) ∧
    (∀ a c : Role, a.containsAll c = true ∧ c.containsAll a = true ↔
      (∀ name, isWildcard name = false → (name ∈ a.leafNames.keys ↔ name ∈ c.leafNames.keys)) ∧
        (a.leafNames.keys ≠ [] ↔ c.leafNames.keys ≠ [])) ∧
    (∀ a c : Role, (∀ name ∈ c.leafNames.keys, isWildcard name = false) →
      (a.containsAll c = true ↔ ∀ name ∈ c.leafNames.keys, name ∈ a.leafNames.keys)) := by
  simp only [leafNames_ne_nil, RoleGroup.leafNames_ne_nil, mem_leafNames, RoleGroup.mem_leafNames]
  refine ⟨fun _ _ => containsAll_iff, ?_, fun _ _ => RoleGroup.holdsAny_iff_shared, containsAll_refl, ?_, ?_, ?_⟩
  · intro g name
    exact g.holds_eq_containsAll ⟨name, none⟩
  · intro a b c first second
    exact containsAll_trans first second
  · intro a c
    exact containsAll_both_iff
  · intro a c plain
    exact containsAll_iff_of_no_wildcard plain

/-- A wildcard deep inside one group and the other wildcard in another group make the two contain each other, and give
neither of them a role that it does not name. -/
theorem Role.containment_by_leafNames_nested :
    let staff : Role := .group "staff" [.named "editor", .group "inner" [.group "empty" [], .named "ANYBODY"]]
    let crew : Role := .group "crew" [.simple ⟨"editor", some "staff"⟩, .named "**"]
    let guests : Role := .group "guests" [.named "guest"]
    (staff.containsAll crew = true ∧ crew.containsAll staff = true) ∧
      (∀ name ∈ guests.leafNames.keys, isWildcard name = false) ∧ ¬staff.containsAll guests = true := by
  intro staff crew guests
  obtain ⟨_, _, _, _, _, both, named⟩ := containment_by_leafNames
  have staffNames : staff.leafNames.keys = ["ANYBODY", "editor"] := by decide +kernel
  have crewNames : crew.leafNames.keys = ["**", "editor"] := by decide +kernel
  have guestNames : guests.leafNames.keys = ["guest"] := by decide +kernel
  have plain : ∀ name ∈ guests.leafNames.keys, isWildcard name = false := by
    rw [guestNames]
    decide
  refine ⟨(both staff crew).mpr ⟨fun name notWildcard => ?_, ?_⟩, plain, ?_⟩
  · simp only [isWildcard, anybody, anyAuthenticated, Bool.or_eq_false_iff, beq_eq_false_iff_ne] at notWildcard
    simp only [staffNames, crewNames, List.mem_cons, notWildcard.1, notWildcard.2, false_or]
  · rw [staffNames, crewNames]
    decide
  · rw [named staff guests plain, staffNames, guestNames]
    decide

end AccessControl
