namespace AccessControl
universe u v

variable {κ : Type u} {α : Type v} [Ord κ]

/-- Puts a value under a key, in front of the first larger key. The value of an equal key is replaced. -/
def insertSorted (key : κ) (value : α) : List (κ × α) → List (κ × α)
  | [] => [(key, value)]
  | entry :: rest =>
    match compare key entry.1 with
    | .lt => (key, value) :: entry :: rest
    | .eq => (key, value) :: rest
    | .gt => entry :: insertSorted key value rest

/-- The keys of a list of entries, each one smaller than all that follow. -/
def Ascending (entries : List (κ × α)) : Prop :=
  entries.Pairwise fun a b => compare a.1 b.1 = .lt

theorem mem_insertSorted {key : κ} {value : α} {entries : List (κ × α)} {e : κ × α}
    (member : e ∈ insertSorted key value entries) : e = (key, value) ∨ e ∈ entries := by
  induction entries with
  | nil => simpa [insertSorted] using member
  | cons entry rest ih =>
    simp only [insertSorted] at member
    split at member
    · simpa using member
    · rcases List.mem_cons.mp member with rfl | inside
      · exact .inl rfl
      · exact .inr (List.mem_cons_of_mem _ inside)
    · rcases List.mem_cons.mp member with rfl | inside
      · exact .inr List.mem_cons_self
      · exact (ih inside).imp id (List.mem_cons_of_mem _)

theorem Ascending.insertSorted [Std.TransOrd κ] [Std.LawfulEqOrd κ] {key : κ} {value : α}
    {entries : List (κ × α)} (sorted : Ascending entries) : Ascending (insertSorted key value entries) := by
  induction entries with
  | nil => simp [Ascending, AccessControl.insertSorted]
  | cons entry rest ih =>
    obtain ⟨above, tail⟩ := List.pairwise_cons.mp sorted
    simp only [AccessControl.insertSorted]
    split
    · rename_i before
      refine List.pairwise_cons.mpr ⟨fun e member => ?_, sorted⟩
      rcases List.mem_cons.mp member with rfl | inside
      · exact before
      · exact Std.TransCmp.lt_trans before (above e inside)
    · rename_i same
      have keyEq : key = entry.1 := Std.LawfulEqCmp.eq_of_compare same
      exact List.pairwise_cons.mpr ⟨fun e inside => keyEq ▸ above e inside, tail⟩
    · rename_i after
      refine List.pairwise_cons.mpr ⟨fun e member => ?_, ih tail⟩
      rcases mem_insertSorted member with rfl | inside
      · exact Std.OrientedCmp.lt_of_gt after
      · exact above e inside

/-- A map whose entries stand in ascending order of their keys, with one entry for each key. -/
structure SortedMap (κ : Type u) [Ord κ] (α : Type v) where
  entries : List (κ × α)
  ascending : Ascending entries

namespace SortedMap

theorem ext_entries {a b : SortedMap κ α} (same : a.entries = b.entries) : a = b := by
  cases a; cases b; cases same; rfl

instance [DecidableEq κ] [DecidableEq α] : DecidableEq (SortedMap κ α) := fun a b =>
  if same : a.entries = b.entries then .isTrue (ext_entries same)
  else .isFalse fun equal => same (congrArg entries equal)

def empty : SortedMap κ α := ⟨[], List.Pairwise.nil⟩

instance : Inhabited (SortedMap κ α) := ⟨empty⟩

def keys (m : SortedMap κ α) : List κ := m.entries.map (·.1)
def values (m : SortedMap κ α) : List α := m.entries.map (·.2)
def size (m : SortedMap κ α) : Nat := m.entries.length
def isEmpty (m : SortedMap κ α) : Bool := m.entries.isEmpty

/-- The value under a key. -/
def get? (m : SortedMap κ α) (key : κ) : Option α :=
  m.entries.findSome? fun e => if compare e.1 key = .eq then some e.2 else none

def contains (m : SortedMap κ α) (key : κ) : Bool := (m.get? key).isSome

/-- Sets the value under a key, whether or not there was one. -/
def insert [Std.TransOrd κ] [Std.LawfulEqOrd κ] (m : SortedMap κ α) (key : κ) (value : α) : SortedMap κ α :=
  ⟨insertSorted key value m.entries, m.ascending.insertSorted⟩

/-- Drops the entry of a key, if there is one. -/
def erase (m : SortedMap κ α) (key : κ) : SortedMap κ α :=
  ⟨m.entries.filter fun e => compare e.1 key != .eq, m.ascending.filter _⟩

/-- The entries of a list; of two with one key the later one counts. -/
def ofList [Std.TransOrd κ] [Std.LawfulEqOrd κ] (entries : List (κ × α)) : SortedMap κ α :=
  entries.foldl (fun m e => m.insert e.1 e.2) empty

@[simp] theorem get?_empty (key : κ) : (empty : SortedMap κ α).get? key = none := rfl

end SortedMap

/-- A set whose elements stand in ascending order. -/
abbrev SortedSet (κ : Type u) [Ord κ] := SortedMap κ Unit

namespace SortedSet

/-- The distinct elements of a list. -/
def ofElements [Std.TransOrd κ] [Std.LawfulEqOrd κ] (elements : List κ) : SortedSet κ :=
  SortedMap.ofList (elements.map fun x => (x, ()))

/-- The elements, in ascending order. -/
def elements (s : SortedSet κ) : List κ := s.keys

end SortedSet

end AccessControl
