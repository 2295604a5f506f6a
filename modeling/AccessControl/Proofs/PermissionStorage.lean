import AccessControl.Permission.Stored
import AccessControl.Proofs.PermissionBits
import AccessControl.Proofs.Records
import AccessControl.Proofs.TextPieces

namespace AccessControl

/-- A number is written with digits below sixteen that make it up. -/
theorem exists_hexDigits (n : Nat) : ∃ digits : List Nat, Nat.toDigits 16 n = digits.map Nat.digitChar ∧
    (∀ d ∈ digits, d < 16) ∧ digits.foldl (fun m d => 16 * m + d) 0 = n := by
  induction n using Nat.strongRecOn with
  | ind n ih =>
    rw [Nat.toDigits_eq_if (by decide)]
    split_ifs with small
    · exact ⟨[n], rfl, List.forall_mem_singleton.mpr small, by simp⟩
    · obtain ⟨digits, written, each, sum⟩ := ih (n / 16) (by omega)
      refine ⟨digits ++ [n % 16], by rw [written, List.map_append, List.map_singleton], ?_, ?_⟩
      · exact List.forall_mem_append.mpr ⟨each, List.forall_mem_singleton.mpr (Nat.mod_lt n (by decide))⟩
      · rw [List.foldl_append, sum, List.foldl_cons, List.foldl_nil]
        omega

theorem hexValue?_digitChar : ∀ d < 16, hexValue? d.digitChar = some d := by decide

theorem mapM_hexValue?_digitChar {digits : List Nat} (each : ∀ d ∈ digits, d < 16) :
    (digits.map Nat.digitChar).mapM hexValue? = some digits :=
  mapM_eq_some.mpr (List.forall₂_map_left_iff.mpr (List.forall₂_same.mpr fun d member =>
    hexValue?_digitChar d (each d member)))

/-- A character that cannot separate: it is neither a blank nor a bar. -/
def Solid (c : Char) : Prop := isBlank c = false ∧ c ≠ '|'

instance (c : Char) : Decidable (Solid c) := inferInstanceAs (Decidable (_ ∧ _))

theorem solid_digitChar : ∀ d < 16, Solid d.digitChar ∧ d.digitChar ≠ '+' := by decide

namespace Permission

theorem has_unnamed {p : Permission} {i : Nat} : (⟨p.unnamed⟩ : Permission).Has i ↔ p.Has i ∧ 4 ≤ i := by
  have high : ∀ i < 8, (0xF0 : BitVec 8).getLsbD i = decide (4 ≤ i) := by decide
  unfold Has unnamed
  rw [BitVec.getLsbD_and, Bool.and_eq_true]
  refine and_congr_right fun bit => ?_
  rw [high i (lt_of_has bit), decide_eq_true_eq]

/-- The parts of the stored form, each with the set that it stands for. -/
def storedParts (p : Permission) : List (String × Permission) :=
  p.basics.map (fun b => (b.storedName, b.toPermission)) ++
    if p.unnamed = 0 then [] else [("0x" ++ hexText p.unnamed.toNat, ⟨p.unnamed⟩)]

theorem storedText_eq (p : Permission) : p.storedText = " | ".intercalate (p.storedParts.map Prod.fst) := by
  unfold storedText storedParts
  split_ifs with named
  · simp [Function.comp_def]
  · simp [Function.comp_def]

theorem mem_storedSets {p q : Permission} : q ∈ p.storedParts.map Prod.snd ↔
    (∃ b : BasicPermission, p.Has b.place ∧ b.toPermission = q) ∨ p.unnamed ≠ 0 ∧ q = ⟨p.unnamed⟩ := by
  unfold storedParts
  split_ifs with named
  · simp [named, mem_basics]
  · simp only [List.map_append, List.map_map, List.mem_append, List.mem_map, mem_basics, Function.comp_apply,
      List.map_singleton, List.mem_singleton, ne_eq, named, not_false_eq_true, true_and]

/-- The parts of the stored form make up the whole set. -/
theorem foldl_union_storedParts (p : Permission) : (p.storedParts.map Prod.snd).foldl union empty = p := by
  refine ext_has fun i => ?_
  rw [has_foldl_union]
  constructor
  · rintro ⟨q, member, bit⟩
    rcases List.mem_cons.mp member with rfl | inside
    · exact absurd bit (not_has_empty i)
    · rcases mem_storedSets.mp inside with ⟨b, has, rfl⟩ | ⟨_, rfl⟩
      · rw [b.toPermission_eq_single, has_single b.place_lt] at bit
        exact bit ▸ has
      · exact (has_unnamed.mp bit).1
  · intro bit
    by_cases low : i < 4
    · obtain ⟨b, rfl⟩ := BasicPermission.exists_place low
      have own : b.toPermission.Has b.place := by
        rw [b.toPermission_eq_single, has_single b.place_lt]
      exact ⟨_, List.mem_cons_of_mem _ (mem_storedSets.mpr (.inl ⟨b, bit, rfl⟩)), own⟩
    · have high : (⟨p.unnamed⟩ : Permission).Has i := has_unnamed.mpr ⟨bit, Nat.le_of_not_lt low⟩
      have some : p.unnamed ≠ 0 := fun none => by
        rw [none] at high
        exact not_has_empty i high
      exact ⟨_, List.mem_cons_of_mem _ (mem_storedSets.mpr (.inr ⟨some, rfl⟩)), high⟩

/-- A part of a stored form that is read as a set. -/
structure Stores (part : List Char) (q : Permission) : Prop where
  read : ofStoredPart? part = some q
  solid : ∀ c ∈ part, Solid c

theorem Stores.ne_nil {part : List Char} {q : Permission} (stores : Stores part q) : part ≠ [] := by
  rintro rfl
  cases stores.read

theorem stores_basic (b : BasicPermission) : Stores b.storedName.toList b.toPermission := by
  constructor
  · cases b <;> decide
  · have each : b.storedName.toList.all (fun c => decide (Solid c)) = true := by cases b <;> decide
    simpa only [List.all_eq_true, decide_eq_true_eq] using each

theorem ofHexDigits?_digitChar {digits : List Nat} (each : ∀ d ∈ digits, d < 16) (nonempty : digits ≠ [])
    {n : Nat} (sum : digits.foldl (fun m d => 16 * m + d) 0 = n) (small : n < 256) :
    ofHexDigits? (digits.map Nat.digitChar) = some ⟨BitVec.ofNat 8 n⟩ := by
  obtain ⟨d, rest, rfl⟩ := List.exists_cons_of_ne_nil nonempty
  have unsigned : ((d :: rest).map Nat.digitChar).head? ≠ some '+' := fun sign =>
    (solid_digitChar d (each d List.mem_cons_self)).2 (Option.some.inj sign)
  have values := mapM_hexValue?_digitChar each
  unfold ofHexDigits?
  simp only [unsigned, if_false, values, Option.bind_eq_bind, Option.bind_some, sum, small, if_true]
  rfl

theorem stores_number (bits : BitVec 8) : Stores ("0x" ++ hexText bits.toNat).toList ⟨bits⟩ := by
  obtain ⟨digits, written, each, sum⟩ := exists_hexDigits bits.toNat
  have shape : ("0x" ++ hexText bits.toNat).toList = '0' :: 'x' :: digits.map Nat.digitChar := by
    simp [hexText, written]
  have nonempty : digits ≠ [] := by
    rintro rfl
    exact Nat.toDigits_ne_nil written
  rw [shape]
  constructor
  · have read := ofHexDigits?_digitChar each nonempty sum bits.isLt
    rw [BitVec.ofNat_toNat, BitVec.setWidth_eq] at read
    exact read
  · simp only [List.forall_mem_cons, List.forall_mem_map]
    exact ⟨by decide, by decide, fun d member => (solid_digitChar d (each d member)).1⟩

/-- The stored parts are read as what they stand for. -/
theorem stores_storedParts (p : Permission) : ∀ part ∈ p.storedParts, Stores part.1.toList part.2 := by
  unfold storedParts
  simp only [List.forall_mem_append, List.forall_mem_map]
  refine ⟨fun b _ => stores_basic b, ?_⟩
  split_ifs with named
  · exact nofun
  · exact List.forall_mem_singleton.mpr (stores_number p.unnamed)

section Joined

variable {parts : List (String × Permission)}

theorem toList_joined : (" | ".intercalate (parts.map Prod.fst)).toList =
    [' ', '|', ' '].intercalate (parts.map (·.1.toList)) := by
  rw [String.toList_intercalate, List.map_map]
  rfl

theorem mapM_ofStoredPart?_joined (each : ∀ part ∈ parts, Stores part.1.toList part.2) (nonempty : parts ≠ []) :
    (piecesOf '|' (" | ".intercalate (parts.map Prod.fst)).toList).mapM (fun piece => ofStoredPart? (trimChars piece)) =
      some (parts.map Prod.snd) := by
  have words : ∀ w ∈ parts.map (·.1.toList), '|' ∉ w ∧ trimChars w = w := by
    refine List.forall_mem_map.mpr fun part member => ⟨fun bar => ?_, trimChars_of_no_blanks fun c inside => ?_⟩
    · exact ((each part member).solid '|' bar).2 rfl
    · exact ((each part member).solid c inside).1
  have pieces : (piecesOf '|' (" | ".intercalate (parts.map Prod.fst)).toList).map trimChars =
      parts.map (·.1.toList) := by
    have visible : isBlank '|' = false := by decide
    have blank : ∀ c ∈ [' '], isBlank c = true := List.forall_mem_singleton.mpr (by decide)
    have nothing : ∀ c ∈ ([] : List Char), isBlank c = true := nofun
    rw [toList_joined]
    exact map_trimChars_piecesOf_joined visible blank blank words (mt List.map_eq_nil_iff.mp nonempty) nothing
  have read : (parts.map (·.1.toList)).mapM ofStoredPart? = some (parts.map Prod.snd) :=
    mapM_eq_some.mpr (List.forall₂_map_left_iff.mpr (List.forall₂_map_right_iff.mpr
      (List.forall₂_same.mpr fun part member => (each part member).read)))
  rw [← pieces, List.mapM_map] at read
  exact read

/-- What is joined by bars is read part by part. -/
theorem ofStoredText?_joined (each : ∀ part ∈ parts, Stores part.1.toList part.2) :
    ofStoredText? (" | ".intercalate (parts.map Prod.fst)) = some ((parts.map Prod.snd).foldl union empty) := by
  cases parts with
  | nil => rfl
  | cons first rest =>
    have visible : isBlankText (" | ".intercalate ((first :: rest).map Prod.fst)) = false := by
      have here := each first List.mem_cons_self
      obtain ⟨c, tail, shape⟩ := List.exists_cons_of_ne_nil here.ne_nil
      have solid := here.solid c (shape ▸ List.mem_cons_self)
      rw [isBlankText, toList_joined, List.map_cons, shape]
      cases rest with
      | nil => simp [solid.1]
      | cons next rest => simp [solid.1]
    have read := mapM_ofStoredPart?_joined each (List.cons_ne_nil first rest)
    rw [ofStoredText?, visible, read]
    rfl

end Joined

/-- Every set of permissions is read back from its stored form, with or without names for its bits. -/
theorem ofStoredText?_storedText (p : Permission) : ofStoredText? p.storedText = some p := by
  rw [storedText_eq, ofStoredText?_joined p.stores_storedParts, foldl_union_storedParts]

theorem ofJson?_toJson (p : Permission) : ofJson? p.toJson = some p := p.ofStoredText?_storedText

end Permission

end AccessControl
