import AccessControl.Proofs.RoleStorage

namespace AccessControl

namespace RoleGroup

/-- The groups of a name that calls can lead to: made empty, from roles or from names, or read from a JSON value, and
then changed any number of times. The roles that are put in were made in these ways themselves. -/
inductive Reaches (name : String) : RoleGroup → Prop
  | empty : Reaches name (empty name)
  | withRoles {roles : List Role} : (∀ r ∈ roles, r.Built) → Reaches name (withRoles name roles)
  | ofNames (names : List String) : Reaches name (ofNames name names)
  | read {v : Json} {g : RoleGroup} : ofJson? v = some g → g.name = name → Reaches name g
  | add {g : RoleGroup} {r : Role} : Reaches name g → r.Built → Reaches name (g.add r).2
  | remove {g : RoleGroup} (r : Role) : Reaches name g → Reaches name (g.remove r).2
  | clear {g : RoleGroup} : Reaches name g → Reaches name g.clear

/-- What remains of a list of roles, in order, when each one that equals a role in front of it is dropped. -/
inductive Firsts : List Role → List Role → Prop
  | nil : Firsts [] []
  | first {roles kept : List Role} {r : Role} : Firsts roles kept → (∀ m ∈ roles, (m == r) = false) →
      Firsts (roles ++ [r]) (kept ++ [r])
  | again {roles kept : List Role} {r m : Role} : Firsts roles kept → m ∈ roles → (m == r) = true →
      Firsts (roles ++ [r]) kept

theorem toRole_injective {g h : RoleGroup} (same : g.toRole = h.toRole) : g = h := by
  cases g
  cases h
  cases same
  rfl

theorem withRoles_name (name : String) (roles : List Role) : (withRoles name roles).name = name := by
  rw [withRoles_eq]

section Reaches

variable {name : String} {g : RoleGroup}

theorem Reaches.built (reaches : Reaches name g) : Role.Built g := by
  induction reaches with
  | empty =>
    have none : ∀ r ∈ ([] : List Role), r.Built := nofun
    exact .withRoles name none
  | withRoles each => exact .withRoles name each
  | ofNames names => exact .withRoles name (List.forall_mem_map.mpr fun _ _ => .simple _)
  | read made _ => exact .read (Role.ofJson?_eq_some.mpr (.inr ⟨_, _, rfl, made, rfl⟩))
  | add _ added ih => exact .add ih added
  | remove r _ ih => exact .remove r ih
  | clear _ ih => exact .clear ih

theorem Reaches.name_eq (reaches : Reaches name g) : g.name = name := by
  induction reaches with
  | empty => rfl
  | withRoles _ | ofNames _ => exact withRoles_name name _
  | read _ same => exact same
  | add _ _ ih => exact (add_name _ _).trans ih
  | remove _ _ ih | clear _ ih => exact ih

/-- What is made by the operations on roles is a simple role or a group that calls lead to. -/
theorem reaches_of_built {r : Role} (built : r.Built) (isGroup : r = g) : Reaches g.name g := by
  induction built generalizing g with
  | simple leaf => cases isGroup
  | withRoles name each _ =>
    cases toRole_injective isGroup
    rw [withRoles_name]
    exact .withRoles each
  | @add start r _ added ih _ =>
    cases toRole_injective isGroup
    rw [add_name]
    exact .add (ih rfl) added
  | remove r _ ih =>
    cases toRole_injective isGroup
    exact .remove r (ih rfl)
  | clear _ ih =>
    cases toRole_injective isGroup
    exact .clear (ih rfl)
  | read made =>
    rcases Role.ofJson?_eq_some.mp made with ⟨_, _, _, _, simple⟩ | ⟨_, g', _, made, group⟩
    · cases isGroup.symm.trans simple
    · cases toRole_injective (isGroup.symm.trans group)
      exact .read made rfl

end Reaches

section Firsts

variable {roles kept : List Role}

/-- Every class of equal roles is represented among those that remain. -/
theorem Firsts.exists_iff (firsts : Firsts roles kept) {r : Role} :
    (∃ m ∈ kept, (m == r) = true) ↔ ∃ m ∈ roles, (m == r) = true := by
  induction firsts with
  | nil => rfl
  | first _ _ ih => simp only [List.mem_append, List.mem_singleton, or_and_right, exists_or, exists_eq_left, ih]
  | @again roles kept last m _ member equal ih =>
    -- A role that equals the dropped one equals the earlier one, too.
    have covered : (∃ m' ∈ [last], (m' == r) = true) → ∃ m' ∈ roles, (m' == r) = true := by
      rintro ⟨_, here, equal'⟩
      cases List.mem_singleton.mp here
      exact ⟨m, member, Role.beq_trans equal equal'⟩
    simp only [List.mem_append, or_and_right, exists_or, ih, or_iff_left_of_imp covered]

theorem firsts_withRoles (name : String) (roles : List Role) : Firsts roles (withRoles name roles).members := by
  induction roles using List.reverseRecOn with
  | nil => exact .nil
  | append_singleton roles r ih =>
    rw [withRoles_append_singleton]
    cases present : (withRoles name roles).hasMember r with
    | true =>
      obtain ⟨m, member, equal⟩ := ih.exists_iff.mp (List.any_eq_true.mp present)
      rw [add_of_member present]
      exact .again ih member equal
    | false =>
      have apart : ∀ m ∈ roles, (m == r) = false := fun m member => Bool.eq_false_iff.mpr fun equal =>
        Bool.eq_false_iff.mp present (List.any_eq_true.mpr (ih.exists_iff.mpr ⟨m, member, equal⟩))
      rw [add_of_absent present]
      exact .first ih apart

end Firsts

section Changes

variable {g : RoleGroup}

theorem remove_congr (g : RoleGroup) {a b : Role} (equal : (a == b) = true) : g.remove a = g.remove b := by
  unfold remove
  simp only [BEq.congr_right equal]

theorem remove_of_absent {r : Role} (absent : g.hasMember r = false) : g.remove r = (false, g) := by
  have kept : g.members.filter (fun m => !(m == r)) = g.members := by
    refine List.filter_eq_self.mpr fun m member => ?_
    rw [hasMember_eq_false.mp absent m member]
    rfl
  simp only [remove, kept, bne_self_eq_false]

/-- An addition is refused when an equal role is a member; otherwise the role comes last. -/
theorem add_answers (g : RoleGroup) (r : Role) :
    (g.add r = (false, g) ↔ ∃ m ∈ g.members, (m == r) = true) ∧
      (g.add r = (true, ⟨g.name, g.members ++ [r]⟩) ↔ ∀ m ∈ g.members, (m == r) = false) := by
  rw [← hasMember_eq_false, ← List.any_eq_true, ← hasMember]
  cases present : g.hasMember r with
  | true => simp [add_of_member present]
  | false => simp [add_of_absent present]

variable (distinct : Role.Distinct g.members)

include distinct

theorem remove_of_equal {before after : List Role} {m r : Role} (split : g.members = before ++ m :: after)
    (equal : (m == r) = true) : g.remove r = (true, ⟨g.name, before ++ after⟩) := by
  rw [← remove_congr g equal]
  exact remove_of_split split distinct

theorem remove_answers (r : Role) :
    (g.remove r = (false, g) ↔ ∀ m ∈ g.members, (m == r) = false) ∧
      ((g.remove r).1 = true ↔ ∃ m ∈ g.members, (m == r) = true) := by
  rw [← hasMember_eq_false]
  cases present : g.hasMember r with
  | true =>
    obtain ⟨m, member, equal⟩ := List.any_eq_true.mp present
    obtain ⟨before, after, split⟩ := List.mem_iff_append.mp member
    rw [remove_of_equal distinct split equal]
    exact ⟨⟨nofun, nofun⟩, ⟨fun _ => ⟨m, member, equal⟩, fun _ => rfl⟩⟩
  | false =>
    rw [remove_of_absent present]
    refine ⟨⟨fun _ => rfl, fun _ => rfl⟩, ⟨nofun, fun ⟨m, member, equal⟩ => ?_⟩⟩
    rw [hasMember_eq_false.mp present m member] at equal
    cases equal

/-- Adding a role that is absent and removing it again, or one that equals it, changes nothing. -/
theorem remove_add {r r' : Role} (added : (g.add r).1 = true) (equal : (r == r') = true) :
    (g.add r).2.remove r' = (true, g) := by
  cases present : g.hasMember r with
  | true =>
    rw [add_of_member present] at added
    cases added
  | false =>
    have behind : Role.Distinct (g.members ++ [r]) :=
      Role.distinct_append_singleton.mpr ⟨distinct, hasMember_eq_false.mp present⟩
    rw [add_of_absent present, remove_of_equal behind rfl equal, List.append_nil]

end Changes

/-- A group is a set of roles that keeps the order in which they were added, where equal roles count as the same. After
every run of calls no two members are equal, at any depth, and the group has the name that it started with. An addition
takes place when no member equals the role, and appends it; a removal when some member does, and takes that one out of
the others. A removal undoes the addition of an equal role. A group that is made from a list has the first role of each
kind, in order. -/
theorem edits_as_ordered_set :
    (∀ r : Role, r.Built ↔ (∃ leaf, r = .simple leaf) ∨ ∃ g : RoleGroup, Reaches g.name g ∧ r = g) ∧
    (∀ (name : String) (g : RoleGroup), Reaches name g →
      g.name = name ∧ g.toRole.Irredundant ∧
      (∀ r, (g.add r = (false, g) ↔ ∃ m ∈ g.members, (m == r) = true) ∧
        (g.add r = (true, ⟨name, g.members ++ [r]⟩) ↔ ∀ m ∈ g.members, (m == r) = false)) ∧
      (∀ r, (g.remove r = (false, g) ↔ ∀ m ∈ g.members, (m == r) = false) ∧
        ((g.remove r).1 = true ↔ ∃ m ∈ g.members, (m == r) = true) ∧
        ∀ before m after, g.members = before ++ m :: after → (m == r) = true →
          g.remove r = (true, ⟨name, before ++ after⟩)) ∧
      (∀ r r', (g.add r).1 = true → (r == r') = true → (g.add r).2.remove r' = (true, g)) ∧
      g.clear = ⟨name, []⟩) ∧
    (∀ (name : String) (roles : List Role), ∃ kept, withRoles name roles = ⟨name, kept⟩ ∧ Firsts roles kept) := by
  refine ⟨fun r => ⟨fun built => ?_, ?_⟩, fun name g reaches => ?_, fun name roles => ?_⟩
  · cases r with
    | simple leaf => exact .inl ⟨leaf, rfl⟩
    | group name ms => exact .inr ⟨⟨name, ms⟩, reaches_of_built built rfl, rfl⟩
  · rintro (⟨leaf, rfl⟩ | ⟨g, reaches, rfl⟩)
    · exact .simple leaf
    · exact reaches.built
  · have irredundant := reaches.built.irredundant
    obtain ⟨distinct, _⟩ := Role.irredundant_group_iff.mp irredundant
    cases reaches.name_eq
    refine ⟨rfl, irredundant, g.add_answers, fun r => ?_, fun r r' => remove_add distinct, rfl⟩
    obtain ⟨refused, removed⟩ := remove_answers distinct r
    exact ⟨refused, removed, fun before m after => remove_of_equal distinct⟩
  · refine ⟨_, ?_, firsts_withRoles name roles⟩
    rw [withRoles_eq]

/-- Two groups that differ in the order of their members count as the same role. Of both only the first is taken in;
then the second cannot be added, but it can be removed in the place of the first. Added in its turn, it comes last, and
it is the first one that is removed with it. -/
theorem edits_as_ordered_set_reordered :
    let a : Role := .group "staff" [.named "x", .simple ⟨"y", some "x"⟩]
    let b : Role := .group "staff" [.simple ⟨"y", some "x"⟩, .named "x"]
    let roles : List Role := [a, .named "y", b, .named "y"]
    let g : RoleGroup := ⟨"Roles", [a, .named "y"]⟩
    let h : RoleGroup := ⟨"Roles", [.named "y"]⟩
    Reaches "Roles" g ∧ g.toRole.Irredundant ∧ (∃ kept, withRoles "Roles" roles = ⟨"Roles", kept⟩ ∧ Firsts roles kept) ∧
      g.add b = (false, g) ∧ g.remove b = (true, h) ∧ Reaches "Roles" h ∧ (a == b) = true ∧
      h.add b = (true, ⟨"Roles", [.named "y", b]⟩) ∧ (h.add b).2.remove a = (true, h) := by
  intro a b roles g h
  have pair (r r' : SimpleRole) : ∀ m ∈ [Role.simple r, Role.simple r'], m.Built := by
    intro m member
    rcases List.mem_pair.mp member with rfl | rfl
    · exact .simple r
    · exact .simple r'
  have builtA : a.Built := .withRoles "staff" (pair ⟨"x", none⟩ ⟨"y", some "x"⟩)
  have builtB : b.Built := .withRoles "staff" (pair ⟨"y", some "x"⟩ ⟨"x", none⟩)
  have each : ∀ r ∈ roles, r.Built :=
    List.forall_mem_cons.mpr ⟨builtA, List.forall_mem_cons.mpr ⟨.simple _, List.forall_mem_cons.mpr
      ⟨builtB, List.forall_mem_singleton.mpr (.simple _)⟩⟩⟩
  have equal : (a == b) = true := by rfl
  have apart : ∀ m ∈ h.members, (m == b) = false := List.forall_mem_singleton.mpr rfl
  obtain ⟨_, runs, makes⟩ := edits_as_ordered_set
  have reaches : Reaches "Roles" g := .withRoles each
  obtain ⟨_, irredundant, adds, removes, _⟩ := runs "Roles" g reaches
  have removed : g.remove b = (true, h) := (removes b).2.2 [] a [.named "y"] rfl equal
  have left : Reaches "Roles" h := by
    have next := reaches.remove b
    rw [removed] at next
    exact next
  obtain ⟨_, _, addsLeft, _, undoes, _⟩ := runs "Roles" h left
  have added : h.add b = (true, ⟨"Roles", [.named "y", b]⟩) := (addsLeft b).2.mpr apart
  exact ⟨reaches, irredundant, makes "Roles" roles, (adds b).1.mpr ⟨a, List.mem_cons_self, equal⟩, removed, left, equal,
    added, undoes b a (congrArg Prod.fst added) (Role.beq_symm equal)⟩

end RoleGroup

end AccessControl
