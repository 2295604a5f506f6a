import AccessControl.Permission

namespace AccessControl

namespace Permission

/-- The set has this bit. -/
def Has (p : Permission) (i : Nat) : Prop := p.bits.getLsbD i = true

theorem lt_of_has {p : Permission} {i : Nat} (bit : p.Has i) : i < 8 := BitVec.lt_of_getLsbD bit

theorem ext_has {a b : Permission} (same : ∀ i, a.Has i ↔ b.Has i) : a = b := by
  have bits : a.bits = b.bits := BitVec.eq_of_getLsbD_eq fun i _ => Bool.eq_iff_iff.mpr (same i)
  cases a
  exact congrArg _ bits

theorem contains_iff {a b : Permission} : a.contains b = true ↔ ∀ i, b.Has i → a.Has i := by
  unfold contains Has
  rw [beq_iff_eq]
  constructor
  · intro same i bit
    rw [← same, BitVec.getLsbD_and, Bool.and_eq_true] at bit
    exact bit.1
  · intro each
    refine BitVec.eq_of_getLsbD_eq fun i _ => ?_
    rw [BitVec.getLsbD_and]
    cases bit : b.bits.getLsbD i with
    | false => rw [Bool.and_false]
    | true => rw [each i bit, Bool.and_true]

theorem has_union {a b : Permission} {i : Nat} : (a.union b).Has i ↔ a.Has i ∨ b.Has i := by
  unfold Has union
  rw [BitVec.getLsbD_or, Bool.or_eq_true]

theorem has_foldl_union {first : Permission} {rest : List Permission} {i : Nat} :
    (rest.foldl union first).Has i ↔ ∃ p ∈ first :: rest, p.Has i := by
  induction rest generalizing first with
  | nil => simp only [List.foldl_nil, List.mem_singleton, exists_eq_left]
  | cons p rest ih =>
    rw [List.foldl_cons, ih]
    simp only [List.mem_cons, exists_eq_or_imp, has_union, or_assoc]

theorem contains_trans {a b c : Permission} (first : a.contains b = true) (second : b.contains c = true) :
    a.contains c = true :=
  contains_iff.mpr fun i bit => contains_iff.mp first i (contains_iff.mp second i bit)

/-- The permission that is one bit. -/
def single (i : Nat) : Permission := ⟨BitVec.twoPow 8 i⟩

/-- Every permission that is one bit, the four without a name included. -/
def singles : List Permission := (List.range 8).map single

theorem has_single {i j : Nat} (bound : i < 8) : (single i).Has j ↔ i = j := by
  unfold Has single
  rw [BitVec.getLsbD_twoPow]
  simp only [bound, decide_true, Bool.true_and, decide_eq_true_eq]

theorem contains_single {p : Permission} {i : Nat} (bound : i < 8) : p.contains (single i) = true ↔ p.Has i := by
  rw [contains_iff]
  constructor
  · intro each
    exact each i ((has_single bound).mpr rfl)
  · intro bit j isBit
    rw [← (has_single bound).mp isBit]
    exact bit

theorem not_has_empty (i : Nat) : ¬empty.Has i := by
  unfold Has empty
  simp

theorem contains_empty (p : Permission) : p.contains empty = true :=
  contains_iff.mpr fun i bit => absurd bit (not_has_empty i)

theorem isEmpty_iff {p : Permission} : p.isEmpty = true ↔ p = empty := by
  unfold isEmpty empty
  rw [beq_iff_eq]
  cases p
  rw [mk.injEq]

theorem exists_has {p : Permission} (nonempty : p ≠ empty) : ∃ i, p.Has i := by
  refine Classical.byContradiction fun none => nonempty (ext_has fun i => ?_)
  constructor
  · intro bit
    exact absurd ⟨i, bit⟩ none
  · intro bit
    exact absurd bit (not_has_empty i)

theorem ne_empty_of_contains {p q : Permission} (contained : p.contains q = true) (nonempty : q ≠ empty) :
    p ≠ empty := by
  rintro rfl
  obtain ⟨i, bit⟩ := exists_has nonempty
  exact not_has_empty i (contains_iff.mp contained i bit)

theorem single_ne_empty {i : Nat} (bound : i < 8) : single i ≠ empty := by
  intro same
  have bit : (single i).Has i := (has_single bound).mpr rfl
  rw [same] at bit
  exact not_has_empty i bit

theorem mem_singles {q : Permission} : q ∈ singles ↔ ∃ i < 8, single i = q := by
  simp only [singles, List.mem_map, List.mem_range]

theorem exists_single_contained {p : Permission} (nonempty : p ≠ empty) :
    ∃ q ∈ singles, p.contains q = true := by
  obtain ⟨i, bit⟩ := exists_has nonempty
  have bound := lt_of_has bit
  exact ⟨single i, mem_singles.mpr ⟨i, bound, rfl⟩, (contains_single bound).mpr bit⟩

theorem eq_union_of_singles (p : Permission) : p = (singles.filter p.contains).foldl union empty := by
  refine ext_has fun i => ?_
  rw [has_foldl_union]
  constructor
  · intro bit
    have bound := lt_of_has bit
    have member : single i ∈ singles.filter p.contains :=
      List.mem_filter.mpr ⟨mem_singles.mpr ⟨i, bound, rfl⟩, (contains_single bound).mpr bit⟩
    exact ⟨single i, List.mem_cons_of_mem _ member, (has_single bound).mpr rfl⟩
  · rintro ⟨q, member, bit⟩
    rcases List.mem_cons.mp member with rfl | inside
    · exact absurd bit (not_has_empty i)
    · exact contains_iff.mp (List.mem_filter.mp inside).2 i bit

end Permission

namespace BasicPermission

/-- The place of the bit of a permission. -/
def place : BasicPermission → Nat
  | read => 0
  | update => 1
  | create => 2
  | delete => 3

theorem toPermission_eq_single (b : BasicPermission) : b.toPermission = .single b.place := by
  cases b <;> rfl

theorem place_lt (b : BasicPermission) : b.place < 8 := by
  cases b <;> decide

theorem exists_place {i : Nat} (bound : i < 4) : ∃ b, place b = i := by
  have listed : ∀ i < 4, ∃ b ∈ all, place b = i := by decide
  obtain ⟨b, _, here⟩ := listed i bound
  exact ⟨b, here⟩

end BasicPermission

namespace Permission

theorem mem_basics {p : Permission} {b : BasicPermission} : b ∈ p.basics ↔ p.Has b.place := by
  have member : b ∈ BasicPermission.all := by cases b <;> decide
  simp only [basics, List.mem_filter, member, true_and, b.toPermission_eq_single, contains_single b.place_lt]

/-- What is granted first, if anything, is granted second too. -/
def AtMost (first second : Option Permission) : Prop :=
  ∀ p, first = some p → ∃ q, second = some q ∧ q.contains p = true

theorem AtMost.antisymm {a b : Option Permission} (there : AtMost a b) (back : AtMost b a) : a = b := by
  cases a with
  | none =>
    cases b with
    | none => rfl
    | some q =>
      obtain ⟨_, impossible, _⟩ := back q rfl
      cases impossible
  | some p =>
    obtain ⟨q, rfl, more⟩ := there p rfl
    obtain ⟨_, ⟨⟩, less⟩ := back q rfl
    have same : p = q := ext_has fun i => ⟨contains_iff.mp more i, contains_iff.mp less i⟩
    rw [same]

end Permission

end AccessControl
