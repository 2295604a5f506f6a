import AccessControl.Proofs.RoleContainment
import Mathlib.Data.List.Induction
import Mathlib.Logic.Relation

namespace AccessControl

namespace Role

theorem allAmong_eq_all (ms others : List Role) : allAmong ms others = ms.all fun m => others.any fun b => m == b := by
  induction ms with
  | nil => rfl
  | cons m rest ih =>
    have unfolded : allAmong (m :: rest) others = ((others.any fun b => m == b) && allAmong rest others) := rfl
    rw [unfolded, ih, List.all_cons]

theorem isAmong_eq_any (ms : List Role) (b : Role) : isAmong ms b = ms.any fun m => m == b := by
  induction ms with
  | nil => rfl
  | cons m rest ih =>
    have unfolded : isAmong (m :: rest) b = (m == b || isAmong rest b) := rfl
    rw [unfolded, ih, List.any_cons]

theorem simple_beq_iff {leaf leaf' : SimpleRole} : (simple leaf == simple leaf') = true ↔ leaf = leaf' := by
  have unfolded : (simple leaf == simple leaf') = (leaf == leaf') := rfl
  rw [unfolded, beq_iff_eq]

@[simp] theorem simple_beq_group (leaf : SimpleRole) (name : String) (ms : List Role) :
    (simple leaf == group name ms) = false := rfl

@[simp] theorem group_beq_simple (leaf : SimpleRole) (name : String) (ms : List Role) :
    (group name ms == simple leaf) = false := rfl

/-- Groups are equal when they have one name and each member of either equals some member of the other. -/
theorem group_beq_iff {name name' : String} {ms ms' : List Role} :
    (group name ms == group name' ms') = true ↔
      name = name' ∧ (∀ m ∈ ms, ∃ m' ∈ ms', (m == m') = true) ∧ ∀ m' ∈ ms', ∃ m ∈ ms, (m == m') = true := by
  have unfolded : (group name ms == group name' ms') =
      (name == name' && allAmong ms ms' && ms'.all fun m' => isAmong ms m') := rfl
  rw [unfolded, Bool.and_eq_true, Bool.and_eq_true, beq_iff_eq, allAmong_eq_all, and_assoc]
  simp only [isAmong_eq_any, List.all_eq_true, List.any_eq_true]

theorem beq_self (a : Role) : (a == a) = true := by
  induction a using memberwise with
  | simple leaf => rw [simple_beq_iff]
  | group name ms ih =>
    have each : ∀ m ∈ ms, ∃ m' ∈ ms, (m == m') = true := fun m member => ⟨m, member, ih m member⟩
    have each' : ∀ m' ∈ ms, ∃ m ∈ ms, (m == m') = true := fun m' member => ⟨m', member, ih m' member⟩
    rw [group_beq_iff]
    exact ⟨rfl, each, each'⟩

theorem beq_symm {a b : Role} (equal : (a == b) = true) : (b == a) = true := by
  induction a using memberwise generalizing b with
  | simple leaf =>
    cases b with
    | simple leaf' =>
      rw [simple_beq_iff] at equal ⊢
      exact equal.symm
    | group name' ms' => simp at equal
  | group name ms ih =>
    cases b with
    | simple leaf' => simp at equal
    | group name' ms' =>
      rw [group_beq_iff] at equal ⊢
      obtain ⟨sameName, forth, back⟩ := equal
      refine ⟨sameName.symm, ?_, ?_⟩
      · intro m' member'
        obtain ⟨m, member, here⟩ := back m' member'
        exact ⟨m, member, ih m member here⟩
      · intro m member
        obtain ⟨m', member', here⟩ := forth m member
        exact ⟨m', member', ih m member here⟩

theorem beq_trans {a b c : Role} (first : (a == b) = true) (second : (b == c) = true) : (a == c) = true := by
  induction a using memberwise generalizing b c with
  | simple leaf =>
    cases b with
    | simple leaf' =>
      cases simple_beq_iff.mp first
      exact second
    | group name' ms' => simp at first
  | group name ms ih =>
    cases b with
    | simple leaf' => simp at first
    | group name' ms' =>
      cases c with
      | simple leaf'' => simp at second
      | group name'' ms'' =>
        rw [group_beq_iff] at first second ⊢
        obtain ⟨sameName, forth, back⟩ := first
        obtain ⟨sameName', forth', back'⟩ := second
        -- Both directions go through a member of the first group, since the induction is on it.
        refine ⟨sameName.trans sameName', ?_, ?_⟩
        · intro m member
          obtain ⟨m', member', here⟩ := forth m member
          obtain ⟨m'', member'', there⟩ := forth' m' member'
          exact ⟨m'', member'', ih m member here there⟩
        · intro m'' member''
          obtain ⟨m', member', there⟩ := back' m'' member''
          obtain ⟨m, member, here⟩ := back m' member'
          exact ⟨m, member, ih m member here there⟩

instance : EquivBEq Role where
  rfl := beq_self _
  symm := beq_symm
  trans := beq_trans

/-- It does not matter on which side of the comparison the members of the other list stand. -/
theorem allAmong_eq_all_swapped (ms others : List Role) :
    allAmong ms others = ms.all fun m => others.any fun b => b == m := by
  have swap (m : Role) : (fun b => m == b) = fun b => b == m := funext fun _ => BEq.comm
  rw [allAmong_eq_all]
  exact congrArg ms.all (funext fun m => congrArg others.any (swap m))

theorem name_of_beq {a b : Role} (equal : (a == b) = true) : a.name = b.name := by
  cases a with
  | simple leaf =>
    cases b with
    | simple leaf' => rw [simple_beq_iff.mp equal]
    | group name' ms' => simp at equal
  | group name ms =>
    cases b with
    | simple leaf' => simp at equal
    | group name' ms' =>
      rw [group_beq_iff] at equal
      exact equal.1

/-- Equal roles have the same leaves, parents included, although not as often and not in the same order. -/
theorem mem_leaves_of_beq {a b : Role} (equal : (a == b) = true) {leaf : SimpleRole} (member : leaf ∈ a.leaves) :
    leaf ∈ b.leaves := by
  induction a using memberwise generalizing b with
  | simple own =>
    cases b with
    | simple own' =>
      rw [← simple_beq_iff.mp equal]
      exact member
    | group name' ms' => simp at equal
  | group name ms ih =>
    cases b with
    | simple own' => simp at equal
    | group name' ms' =>
      obtain ⟨_, forth, _⟩ := group_beq_iff.mp equal
      obtain ⟨m, inside, below⟩ := mem_leavesOf.mp member
      obtain ⟨m', inside', here⟩ := forth m inside
      exact mem_leavesOf.mpr ⟨m', inside', ih m inside here below⟩

theorem hasLeaf_of_beq {a b : Role} (equal : (a == b) = true) {name : String} : a.HasLeaf name ↔ b.HasLeaf name := by
  constructor
  · rintro ⟨leaf, member, named⟩
    exact ⟨leaf, mem_leaves_of_beq equal member, named⟩
  · rintro ⟨leaf, member, named⟩
    exact ⟨leaf, mem_leaves_of_beq (beq_symm equal) member, named⟩

theorem leafNames_of_beq {a b : Role} (equal : (a == b) = true) : a.leafNames = b.leafNames := by
  refine SortedSet.ext_keys fun name => ?_
  rw [mem_leafNames, mem_leafNames]
  exact hasLeaf_of_beq equal

theorem containsAll_of_beq {a b : Role} (equal : (a == b) = true) (x : Role) :
    a.containsAll x = b.containsAll x ∧ x.containsAll a = x.containsAll b := by
  constructor
  · rw [Bool.eq_iff_iff]
    simp only [containsAll_iff, hasLeaf_of_beq equal]
  · rw [Bool.eq_iff_iff]
    simp only [containsAll_iff, hasLeaf_of_beq equal]

/-- Groups of one name are equal when their members can be paired off, in any order, with equal ones. -/
theorem group_beq_of_members {name : String} {ms ms' : List Role}
    (forth : ∀ m ∈ ms, m ∈ ms' ∨ ∃ m' ∈ ms', (m == m') = true)
    (back : ∀ m' ∈ ms', m' ∈ ms ∨ ∃ m ∈ ms, (m == m') = true) : (group name ms == group name ms') = true := by
  refine group_beq_iff.mpr ⟨rfl, ?_, ?_⟩
  · intro m member
    rcases forth m member with here | equal
    · exact ⟨m, here, beq_self m⟩
    · exact equal
  · intro m' member'
    rcases back m' member' with here | equal
    · exact ⟨m', here, beq_self m'⟩
    · exact equal

theorem group_beq_of_perm {name : String} {ms ms' : List Role} (perm : ms.Perm ms') :
    (group name ms == group name ms') = true :=
  group_beq_of_members (fun _ member => .inl (perm.mem_iff.mp member)) fun _ member => .inl (perm.mem_iff.mpr member)

theorem group_beq_of_replaced {name : String} (before after : List Role) {m m' : Role} (equal : (m == m') = true) :
    (group name (before ++ m :: after) == group name (before ++ m' :: after)) = true := by
  refine group_beq_of_members ?_ ?_
  · intro other member
    rcases List.mem_append.mp member with left | right
    · exact .inl (List.mem_append_left _ left)
    · rcases List.mem_cons.mp right with rfl | right
      · exact .inr ⟨m', by simp, equal⟩
      · exact .inl (by simp [right])
  · intro other member
    rcases List.mem_append.mp member with left | right
    · exact .inl (List.mem_append_left _ left)
    · rcases List.mem_cons.mp right with rfl | right
      · exact .inr ⟨m, by simp, equal⟩
      · exact .inl (by simp [right])

/-- The second role is the first one with the members of a single group, at any depth, in another order. -/
inductive Permutes : Role → Role → Prop
  | here (name : String) {ms ms' : List Role} : ms.Perm ms' → Permutes (group name ms) (group name ms')
  | inside (name : String) (before after : List Role) {m m' : Role} : Permutes m m' →
      Permutes (group name (before ++ m :: after)) (group name (before ++ m' :: after))

theorem Permutes.beq {a b : Role} (permutes : Permutes a b) : (a == b) = true := by
  induction permutes with
  | here name perm => exact group_beq_of_perm perm
  | inside name before after _ ih => exact group_beq_of_replaced before after ih

theorem beq_of_permutings {a b : Role} (permutings : Relation.ReflTransGen Permutes a b) : (a == b) = true := by
  induction permutings with
  | refl => exact beq_self a
  | tail _ last ih => exact beq_trans ih last.beq

/-- No two roles of the list are equal. -/
def Distinct (ms : List Role) : Prop := ms.Pairwise fun m m' => (m == m') = false

theorem distinct_append_singleton {ms : List Role} {r : Role} :
    Distinct (ms ++ [r]) ↔ Distinct ms ∧ ∀ m ∈ ms, (m == r) = false := by
  simp [Distinct, List.pairwise_append]

theorem Distinct.replaced {before after : List Role} {a b : Role} (distinct : Distinct (before ++ a :: after))
    (equal : (a == b) = true) : Distinct (before ++ b :: after) := by
  unfold Distinct at distinct ⊢
  simp only [List.pairwise_append, List.pairwise_cons, List.forall_mem_cons] at distinct ⊢
  obtain ⟨first, ⟨apart, last⟩, across⟩ := distinct
  refine ⟨first, ⟨fun m member => ?_, last⟩, fun m member => ?_⟩
  · rw [← BEq.congr_left equal]
    exact apart m member
  · obtain ⟨fromA, later⟩ := across m member
    rw [← BEq.congr_right equal]
    exact ⟨fromA, later⟩

end Role

namespace RoleGroup

theorem hasMember_eq_false {g : RoleGroup} {r : Role} : g.hasMember r = false ↔ ∀ m ∈ g.members, (m == r) = false := by
  simp [hasMember]

theorem add_of_member {g : RoleGroup} {r : Role} (present : g.hasMember r = true) : g.add r = (false, g) := by
  rw [add, if_pos present]

theorem add_of_absent {g : RoleGroup} {r : Role} (absent : g.hasMember r = false) :
    g.add r = (true, { g with members := g.members ++ [r] }) := by
  rw [add, absent]
  rfl

theorem withRoles_append_singleton (name : String) (roles : List Role) (r : Role) :
    withRoles name (roles ++ [r]) = ((withRoles name roles).add r).2 := by
  simp [withRoles, addAll]

/-- Adding roles that are all different leaves out none of them. -/
theorem withRoles_of_distinct (name : String) {ms : List Role} (distinct : Role.Distinct ms) :
    withRoles name ms = ⟨name, ms⟩ := by
  induction ms using List.reverseRecOn with
  | nil => rfl
  | append_singleton ms r ih =>
    obtain ⟨earlier, apart⟩ := Role.distinct_append_singleton.mp distinct
    have absent : (RoleGroup.mk name ms).hasMember r = false := hasMember_eq_false.mpr apart
    rw [withRoles_append_singleton, ih earlier, add_of_absent absent]

/-- Removing a role from a group without repetitions removes that one member and nothing else. -/
theorem remove_of_split {g : RoleGroup} {before after : List Role} {a : Role} (split : g.members = before ++ a :: after)
    (distinct : Role.Distinct g.members) : g.remove a = (true, { g with members := before ++ after }) := by
  rw [split, Role.Distinct, List.pairwise_append, List.pairwise_cons] at distinct
  obtain ⟨_, ⟨apart, _⟩, across⟩ := distinct
  have keepBefore : before.filter (fun m => !(m == a)) = before := by
    refine List.filter_eq_self.mpr fun m member => ?_
    rw [across m member a List.mem_cons_self]
    rfl
  have keepAfter : after.filter (fun m => !(m == a)) = after := by
    refine List.filter_eq_self.mpr fun m member => ?_
    rw [BEq.comm, apart m member]
    rfl
  have dropped : (a :: after).filter (fun m => !(m == a)) = after := by
    rw [List.filter_cons, Role.beq_self, keepAfter]
    rfl
  have kept : g.members.filter (fun m => !(m == a)) = before ++ after := by
    rw [split, List.filter_append, keepBefore, dropped]
  have shorter : (before ++ after).length ≠ g.members.length := by
    rw [split]
    simp
  simp only [remove, kept, bne_iff_ne.mpr shorter]

/-- An equal role may stand in for a member of a group without repetitions: in its place, in a group made anew, and
when it is added after the member has been removed. -/
theorem beq_of_member_replaced {g : RoleGroup} {before after : List Role} {a b : Role}
    (split : g.members = before ++ a :: after) (distinct : Role.Distinct g.members) (equal : (a == b) = true) :
    (g == ⟨g.name, before ++ b :: after⟩) = true ∧
      withRoles g.name (before ++ b :: after) = ⟨g.name, before ++ b :: after⟩ ∧
      (g.remove a).2.add b = (true, ⟨g.name, before ++ after ++ [b]⟩) ∧
      (g == ⟨g.name, before ++ after ++ [b]⟩) = true := by
  have inPlace : (g == ⟨g.name, before ++ b :: after⟩) = true := by
    change (g.toRole == toRole ⟨g.name, before ++ b :: after⟩) = true
    rw [toRole, split]
    exact Role.group_beq_of_replaced before after equal
  have replaced : Role.Distinct (before ++ b :: after) := by
    rw [split] at distinct
    exact distinct.replaced equal
  have moved : (before ++ b :: after).Perm (before ++ after ++ [b]) := by
    rw [List.append_assoc]
    exact (List.perm_append_singleton b after).symm.append_left before
  have absent : (RoleGroup.mk g.name (before ++ after)).hasMember b = false := by
    have last := (moved.pairwise_iff fun apart => by rwa [BEq.comm] at apart).mp replaced
    exact hasMember_eq_false.mpr (Role.distinct_append_singleton.mp last).2
  refine ⟨inPlace, withRoles_of_distinct g.name replaced, ?_, ?_⟩
  · rw [remove_of_split split distinct]
    exact add_of_absent absent
  · exact Role.beq_trans inPlace (Role.group_beq_of_perm moved)

end RoleGroup

/-- Equality of roles is an equivalence that does not see the order of members at any depth, and nothing that is asked
about roles tells equal roles apart. -/
theorem Role.equality_is_congruence :
    (∀ a : Role, (a == a) = true) ∧ (∀ a b : Role, (a == b) = true → (b == a) = true) ∧
    (∀ a b c : Role, (a == b) = true → (b == c) = true → (a == c) = true) ∧
    (∀ a b : Role, Relation.ReflTransGen Permutes a b → (a == b) = true) ∧
    (∀ a b : Role, (a == b) = true → a.name = b.name ∧ a.leafNames = b.leafNames ∧
      (∀ x : Role, a.containsAll x = b.containsAll x ∧ x.containsAll a = x.containsAll b) ∧
      ∀ (g : RoleGroup) (before after : List Role), g.members = before ++ a :: after → Distinct g.members →
        (g == ⟨g.name, before ++ b :: after⟩) = true ∧
        RoleGroup.withRoles g.name (before ++ b :: after) = ⟨g.name, before ++ b :: after⟩ ∧
        (g.remove a).2.add b = (true, ⟨g.name, before ++ after ++ [b]⟩) ∧
        (g == ⟨g.name, before ++ after ++ [b]⟩) = true) := by
  refine ⟨beq_self, fun a b => beq_symm, fun a b c => beq_trans, fun a b => beq_of_permutings, fun a b equal => ?_⟩
  refine ⟨name_of_beq equal, leafNames_of_beq equal, containsAll_of_beq equal, fun g before after split distinct => ?_⟩
  exact RoleGroup.beq_of_member_replaced split distinct equal

/-- Two groups that differ in the order of their members, outside and inside, are equal without being the same. In a
group of three either may stand for the other. -/
theorem Role.equality_is_congruence_reordered :
    let inner : Role := .group "inner" [.named "p", .simple ⟨"q", some "p"⟩]
    let turned : Role := .group "inner" [.simple ⟨"q", some "p"⟩, .named "p"]
    let a : Role := .group "staff" [.named "x", inner]
    let b : Role := .group "staff" [turned, .named "x"]
    let g : RoleGroup := ⟨"Roles", [.named "y", a, .named "staff"]⟩
    Relation.ReflTransGen Permutes a b ∧ (a == b) = true ∧ (b == a) = true ∧ a ≠ b ∧ a.leafNames = b.leafNames ∧
      Distinct g.members ∧ (g == ⟨"Roles", [.named "y", b, .named "staff"]⟩) = true ∧
      (g.remove a).2.add b = (true, ⟨"Roles", [.named "y", .named "staff", b]⟩) := by
  intro inner turned a b g
  have turning : Permutes inner turned := .here "inner" (.swap _ _ [])
  have within : Permutes a (.group "staff" [.named "x", turned]) := .inside "staff" [.named "x"] [] turning
  have swapping : Permutes (.group "staff" [.named "x", turned]) b := .here "staff" (.swap _ _ [])
  have permutings : Relation.ReflTransGen Permutes a b := .tail (.single within) swapping
  obtain ⟨_, symmetric, transitive, permuted, congruent⟩ := equality_is_congruence
  have first := permuted a _ (.single within)
  have equal := transitive a _ b first (permuted _ b (.single swapping))
  have distinct : Distinct g.members := by
    unfold Distinct
    decide +kernel
  obtain ⟨_, leaves, _, replaced⟩ := congruent a b equal
  obtain ⟨inPlace, _, moved, _⟩ := replaced g [.named "y"] [.named "staff"] rfl distinct
  have different : a ≠ b := by
    intro same
    simp [a, b, named, turned] at same
  exact ⟨permutings, equal, symmetric a b equal, different, leaves, distinct, inPlace, moved⟩

end AccessControl
