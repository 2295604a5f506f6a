import AccessControl.SortedMap

namespace AccessControl
universe u v

variable {κ : Type u} {α : Type v} [Ord κ]

/-- The value of the first entry with a key. -/
def valueIn (entries : List (κ × α)) (key : κ) : Option α :=
  entries.findSome? fun e => if compare e.1 key = .eq then some e.2 else none

theorem compare_self_ne_lt [Std.ReflOrd κ] (a : κ) : compare a a ≠ .lt := by
  simp [Std.ReflCmp.compare_self]

theorem compare_ne_eq [Std.LawfulEqOrd κ] {a b : κ} (different : a ≠ b) : compare a b ≠ .eq :=
  fun same => different (Std.LawfulEqCmp.eq_of_compare same)

/-- Inserting the entries of an ascending list one after another, all above those already there, appends them. -/
theorem insertSorted_append [Std.TransOrd κ] {key : κ} {value : α} {entries : List (κ × α)}
    (below : ∀ e ∈ entries, compare e.1 key = .lt) : insertSorted key value entries = entries ++ [(key, value)] := by
  induction entries with
  | nil => rfl
  | cons entry rest ih =>
    have after : compare key entry.1 = .gt := Std.OrientedCmp.gt_of_lt (below entry List.mem_cons_self)
    simp [insertSorted, after, ih fun e member => below e (List.mem_cons_of_mem _ member)]

theorem valueIn_insertSorted_self [Std.TransOrd κ] [Std.LawfulEqOrd κ] (key : κ) (value : α) (entries : List (κ × α)) :
    valueIn (insertSorted key value entries) key = some value := by
  induction entries with
  | nil => simp [insertSorted, valueIn, Std.ReflCmp.compare_self]
  | cons entry rest ih =>
    simp only [insertSorted]
    split
    · simp [valueIn, Std.ReflCmp.compare_self]
    · simp [valueIn, Std.ReflCmp.compare_self]
    · rename_i after
      have other : compare entry.1 key ≠ .eq := by
        rw [Std.OrientedCmp.lt_of_gt after]
        decide
      simpa [valueIn, other] using ih

theorem valueIn_insertSorted_of_ne [Std.LawfulEqOrd κ] {key other : κ} (different : key ≠ other) (value : α)
    (entries : List (κ × α)) : valueIn (insertSorted key value entries) other = valueIn entries other := by
  have apart : compare key other ≠ .eq := compare_ne_eq different
  induction entries with
  | nil => simp [insertSorted, valueIn, apart]
  | cons entry rest ih =>
    simp only [insertSorted]
    split
    · simp [valueIn, apart]
    · rename_i same
      have keyEq : key = entry.1 := Std.LawfulEqCmp.eq_of_compare same
      simp [valueIn, apart, ← keyEq]
    · by_cases here : compare entry.1 other = .eq
      · simp [valueIn, here]
      · simpa [valueIn, here] using ih

/-- In ascending entries a key has exactly the value that stands beside it. -/
theorem Ascending.mem_iff_valueIn [Std.LawfulEqOrd κ] {entries : List (κ × α)} (sorted : Ascending entries) {key : κ}
    {value : α} :
    (key, value) ∈ entries ↔ valueIn entries key = some value := by
  induction entries with
  | nil => simp [valueIn]
  | cons entry rest ih =>
    obtain ⟨above, tail⟩ := List.pairwise_cons.mp sorted
    by_cases here : compare entry.1 key = .eq
    · have keyEq : entry.1 = key := Std.LawfulEqCmp.eq_of_compare here
      have absent : (key, value) ∉ rest := fun member => by
        have before := above _ member
        rw [keyEq] at before
        exact compare_self_ne_lt key before
      have first : (key, value) = entry ↔ entry.2 = value := by
        cases entry
        simp_all [eq_comm]
      simp [valueIn, here, absent, first]
    · have other : (key, value) ≠ entry := fun same => here (by simp [← same, Std.ReflCmp.compare_self])
      simp only [List.mem_cons, other, false_or]
      simpa [valueIn, here] using ih tail

theorem insertSorted_perm [Std.LawfulEqOrd κ] {key : κ} {value : α} {entries : List (κ × α)}
    (fresh : key ∉ entries.map (·.1)) : (insertSorted key value entries).Perm ((key, value) :: entries) := by
  induction entries with
  | nil => exact .refl _
  | cons entry rest ih =>
    rw [List.map_cons, List.mem_cons, not_or] at fresh
    simp only [insertSorted]
    split
    · exact .refl _
    · rename_i same
      exact absurd same (compare_ne_eq fresh.1)
    · exact ((ih fresh.2).cons entry).trans (.swap _ _ rest)

namespace SortedMap

@[simp] theorem get?_erase_self [Std.LawfulEqOrd κ] (m : SortedMap κ α) (key : κ) : (m.erase key).get? key = none := by
  refine List.findSome?_eq_none_iff.mpr fun e member => ?_
  have kept := (List.mem_filter.mp member).2
  simp_all

theorem mem_entries_iff [Std.LawfulEqOrd κ] (m : SortedMap κ α) {key : κ} {value : α} :
    (key, value) ∈ m.entries ↔ m.get? key = some value := m.ascending.mem_iff_valueIn

theorem mem_keys [Std.LawfulEqOrd κ] {m : SortedMap κ α} {key : κ} : key ∈ m.keys ↔ m.contains key = true := by
  rw [contains, Option.isSome_iff_exists, keys, List.mem_map]
  constructor
  · rintro ⟨e, member, rfl⟩
    exact ⟨e.2, (mem_entries_iff m).mp member⟩
  · rintro ⟨value, found⟩
    exact ⟨(key, value), (mem_entries_iff m).mpr found, rfl⟩

theorem keys_nodup [Std.ReflOrd κ] (m : SortedMap κ α) : m.keys.Nodup := by
  refine List.pairwise_map.mpr (m.ascending.imp fun before same => ?_)
  rw [same] at before
  exact compare_self_ne_lt _ before

theorem get?_erase_of_ne [Std.LawfulEqOrd κ] (m : SortedMap κ α) {key other : κ} (different : key ≠ other) :
    (m.erase key).get? other = m.get? other := by
  refine Option.ext fun value => ?_
  rw [← mem_entries_iff, ← mem_entries_iff]
  simp [erase, compare_ne_eq fun same : other = key => different same.symm]

theorem get?_erase [Std.LawfulEqOrd κ] [DecidableEq κ] (m : SortedMap κ α) (key other : κ) :
    (m.erase key).get? other = if key = other then none else m.get? other := by
  by_cases here : key = other
  · rw [if_pos here, ← here, get?_erase_self]
  · rw [if_neg here, get?_erase_of_ne m here]

variable [Std.TransOrd κ] [Std.LawfulEqOrd κ]

@[simp] theorem get?_insert_self (m : SortedMap κ α) (key : κ) (value : α) :
    (m.insert key value).get? key = some value := valueIn_insertSorted_self key value m.entries

theorem get?_insert_of_ne (m : SortedMap κ α) {key other : κ} (different : key ≠ other) (value : α) :
    (m.insert key value).get? other = m.get? other := valueIn_insertSorted_of_ne different value m.entries

theorem get?_insert [DecidableEq κ] (m : SortedMap κ α) (key other : κ) (value : α) :
    (m.insert key value).get? other = if key = other then some value else m.get? other := by
  by_cases here : key = other
  · rw [if_pos here, ← here, get?_insert_self]
  · rw [if_neg here, get?_insert_of_ne m here]

/-- Two maps with the same values are the same map. -/
theorem ext_get? {a b : SortedMap κ α} (same : ∀ key, a.get? key = b.get? key) : a = b := by
  refine ext_entries ?_
  have members : ∀ e, e ∈ a.entries ↔ e ∈ b.entries := fun (key, value) => by
    rw [mem_entries_iff, mem_entries_iff, same]
  clear same
  obtain ⟨as, sortedA⟩ := a
  obtain ⟨bs, sortedB⟩ := b
  simp only at members ⊢
  induction as generalizing bs with
  | nil =>
    cases bs with
    | nil => rfl
    | cons b bs => exact absurd ((members b).mpr List.mem_cons_self) List.not_mem_nil
  | cons a as ih =>
    obtain ⟨aboveA, tailA⟩ := List.pairwise_cons.mp sortedA
    cases bs with
    | nil => exact absurd ((members a).mp List.mem_cons_self) List.not_mem_nil
    | cons b bs =>
      obtain ⟨aboveB, tailB⟩ := List.pairwise_cons.mp sortedB
      have headEq : a = b := by
        rcases List.mem_cons.mp ((members a).mp List.mem_cons_self) with same | later
        · exact same
        · rcases List.mem_cons.mp ((members b).mpr List.mem_cons_self) with same | earlier
          · exact same.symm
          · have first := aboveB a later
            have second := aboveA b earlier
            rw [Std.OrientedCmp.gt_of_lt first] at second
            cases second
      subst headEq
      have rest : ∀ e, e ∈ as ↔ e ∈ bs := fun e => by
        have whole := members e
        constructor
        · intro member
          rcases List.mem_cons.mp (whole.mp (List.mem_cons_of_mem _ member)) with same | inside
          · have before := aboveA e member
            rw [same] at before
            exact absurd before (compare_self_ne_lt _)
          · exact inside
        · intro member
          rcases List.mem_cons.mp (whole.mpr (List.mem_cons_of_mem _ member)) with same | inside
          · have before := aboveB e member
            rw [same] at before
            exact absurd before (compare_self_ne_lt _)
          · exact inside
      rw [ih tailA bs tailB rest]

theorem foldl_insert_entries (m : SortedMap κ α) (entries : List (κ × α)) (sorted : Ascending entries)
    (below : ∀ a ∈ m.entries, ∀ e ∈ entries, compare a.1 e.1 = .lt) :
    (entries.foldl (fun m e => m.insert e.1 e.2) m).entries = m.entries ++ entries := by
  induction entries generalizing m with
  | nil => simp
  | cons entry rest ih =>
    obtain ⟨above, tail⟩ := List.pairwise_cons.mp sorted
    have appended : (m.insert entry.1 entry.2).entries = m.entries ++ [entry] :=
      insertSorted_append fun a member => below a member entry List.mem_cons_self
    rw [List.foldl_cons, ih _ tail, appended, List.append_assoc, List.singleton_append]
    intro a member e inside
    rw [appended] at member
    rcases List.mem_append.mp member with old | new
    · exact below a old e (List.mem_cons_of_mem _ inside)
    · rw [List.mem_singleton.mp new]
      exact above e inside

theorem foldl_insert_perm {m : SortedMap κ α} {entries : List (κ × α)}
    (distinct : ((m.entries ++ entries).map (·.1)).Nodup) :
    (entries.foldl (fun m e => m.insert e.1 e.2) m).entries.Perm (m.entries ++ entries) := by
  induction entries generalizing m with
  | nil => rw [List.append_nil, List.foldl_nil]
  | cons entry rest ih =>
    have middle : (m.entries ++ entry :: rest).Perm (entry :: m.entries ++ rest) := List.perm_middle
    have fresh : entry.1 ∉ m.entries.map (·.1) := by
      have first := (List.nodup_cons.mp ((middle.map (·.1)).nodup_iff.mp distinct)).1
      rw [List.append_eq, List.map_append, List.mem_append, not_or] at first
      exact first.1
    have moved : ((m.insert entry.1 entry.2).entries ++ rest).Perm (m.entries ++ entry :: rest) :=
      ((insertSorted_perm fresh).append_right rest).trans middle.symm
    rw [List.foldl_cons]
    exact (ih ((moved.map (·.1)).nodup_iff.mpr distinct)).trans moved

/-- A map made from entries with distinct keys has exactly these entries. -/
theorem ofList_perm {entries : List (κ × α)} (distinct : (entries.map (·.1)).Nodup) :
    (ofList entries).entries.Perm entries := foldl_insert_perm distinct

/-- A map is made again from its entries. -/
@[simp] theorem ofList_entries (m : SortedMap κ α) : ofList m.entries = m :=
  ext_entries (foldl_insert_entries empty m.entries m.ascending nofun)

omit [Std.TransOrd κ] [Std.LawfulEqOrd κ] in
theorem isEmpty_iff {m : SortedMap κ α} : m.isEmpty = true ↔ m = empty := by
  constructor
  · intro none
    exact ext_entries (List.isEmpty_iff.mp none)
  · rintro rfl
    rfl

theorem contains_insert {m : SortedMap κ α} {key other : κ} {value : α} :
    (m.insert key value).contains other = true ↔ m.contains other = true ∨ other = key := by
  by_cases same : key = other
  · subst same
    simp only [contains, get?_insert_self, Option.isSome_some, or_true]
  · simp only [contains, get?_insert_of_ne m same, Ne.symm same, or_false]

theorem contains_foldl_insert (m : SortedMap κ α) (entries : List (κ × α)) (key : κ) :
    (entries.foldl (fun m e => m.insert e.1 e.2) m).contains key = true ↔
      m.contains key = true ∨ key ∈ entries.map (·.1) := by
  induction entries generalizing m with
  | nil => simp only [List.foldl_nil, List.map_nil, List.not_mem_nil, or_false]
  | cons entry rest ih => rw [List.foldl_cons, ih, contains_insert, List.map_cons, List.mem_cons, or_assoc]

end SortedMap

theorem SortedSet.mem_entries_iff_mem_keys {s : SortedSet κ} {x : κ} : (x, ()) ∈ s.entries ↔ x ∈ s.keys := by
  constructor
  · exact fun member => List.mem_map_of_mem member
  · intro member
    obtain ⟨⟨_, ⟨⟩⟩, present, rfl⟩ := List.mem_map.mp member
    exact present

/-- Two sets with the same elements are the same set. -/
theorem SortedSet.ext_keys [Std.TransOrd κ] [Std.LawfulEqOrd κ] {a b : SortedSet κ}
    (same : ∀ x, x ∈ a.keys ↔ x ∈ b.keys) : a = b := by
  refine SortedMap.ext_get? fun x => Option.ext fun _ => ?_
  rw [← SortedMap.mem_entries_iff, ← SortedMap.mem_entries_iff, mem_entries_iff_mem_keys, mem_entries_iff_mem_keys]
  exact same x

/-- A set made from a list has exactly the elements of the list. -/
theorem SortedSet.mem_elements_ofElements [Std.TransOrd κ] [Std.LawfulEqOrd κ] {elements : List κ} {x : κ} :
    x ∈ (SortedSet.ofElements elements).elements ↔ x ∈ elements := by
  rw [SortedSet.elements, SortedMap.mem_keys, SortedSet.ofElements, SortedMap.ofList,
    SortedMap.contains_foldl_insert, List.map_map]
  simp only [SortedMap.contains, SortedMap.get?_empty, Option.isSome_none, Bool.false_eq_true, false_or]
  rw [show ((·.1) ∘ fun x : κ => (x, ())) = id from rfl, List.map_id]

/-- A set is made again from its elements. -/
@[simp] theorem SortedSet.ofElements_keys [Std.TransOrd κ] [Std.LawfulEqOrd κ] (s : SortedSet κ) :
    SortedSet.ofElements s.keys = s := by
  have whole : (s.keys.map fun x => (x, ())) = s.entries := by
    rw [SortedMap.keys, List.map_map]
    exact List.map_id s.entries
  rw [SortedSet.ofElements, whole, SortedMap.ofList_entries]

end AccessControl
