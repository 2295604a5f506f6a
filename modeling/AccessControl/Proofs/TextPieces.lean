import AccessControl.Proofs.TextWords
import AccessControl.Text

namespace AccessControl

theorem piecesOf_eq_splitOn (separator : Char) (cs : List Char) : piecesOf separator cs = cs.splitOn separator := by
  induction cs with
  | nil => rw [piecesOf, List.splitOn_nil]
  | cons c rest ih =>
    rw [List.splitOn_cons_eq_if_modifyHead, ← ih, piecesOf]
    simp only [beq_iff_eq]
    split_ifs with here
    · rfl
    · rcases pieces : piecesOf separator rest with _ | ⟨first, others⟩
      · exact absurd pieces (piecesOf_ne_nil separator rest)
      · rfl

theorem not_mem_of_mem_piecesOf {separator : Char} {cs piece : List Char} (member : piece ∈ piecesOf separator cs) :
    separator ∉ piece := by
  induction cs generalizing piece with
  | nil =>
    cases List.mem_singleton.mp member
    exact List.not_mem_nil
  | cons c rest ih =>
    rw [piecesOf] at member
    split_ifs at member with here
    · rcases List.mem_cons.mp member with rfl | later
      · exact List.not_mem_nil
      · exact ih later
    · rcases pieces : piecesOf separator rest with _ | ⟨first, others⟩
      · exact absurd pieces (piecesOf_ne_nil separator rest)
      · simp only [pieces] at member ih
        rcases List.mem_cons.mp member with rfl | later
        · exact List.not_mem_cons_of_ne_of_not_mem (Ne.symm here) (ih List.mem_cons_self)
        · exact ih (List.mem_cons_of_mem first later)

/-- The text is these items with a separator between them, and none of the items has a separator inside. -/
structure SplitsInto (separator : Char) (s : String) (items : List String) : Prop where
  nonempty : items ≠ []
  apart : ∀ w ∈ items, separator ∉ w.toList
  joined : (String.singleton separator).intercalate items = s

/-- Every text splits into its pieces. -/
theorem splitsInto_pieces (separator : Char) (s : String) : SplitsInto separator s (pieces separator s) := by
  refine ⟨mt List.map_eq_nil_iff.mp (piecesOf_ne_nil separator s.toList), ?_, ?_⟩
  · refine List.forall_mem_map.mpr fun piece member => ?_
    rw [String.toList_ofList]
    exact not_mem_of_mem_piecesOf member
  · have whole : [separator].intercalate (piecesOf separator s.toList) = s.toList := by
      rw [piecesOf_eq_splitOn, List.intercalate_splitOn]
    rw [← String.toList_inj, String.toList_intercalate, String.toList_singleton, pieces, List.map_map]
    simpa only [Function.comp_def, String.toList_ofList, List.map_id'] using whole

namespace SplitsInto

variable {separator : Char} {s t : String} {items others : List String}

theorem toList_eq (split : SplitsInto separator s items) :
    s.toList = [separator].intercalate (items.map String.toList) := by
  rw [← split.joined, String.toList_intercalate, String.toList_singleton]

/-- There is only one way to split a text. -/
theorem eq_pieces (split : SplitsInto separator s items) : items = pieces separator s := by
  have apart : ∀ w ∈ items.map String.toList, separator ∉ w := List.forall_mem_map.mpr split.apart
  have parts : piecesOf separator s.toList = items.map String.toList := by
    rw [piecesOf_eq_splitOn, split.toList_eq,
      List.splitOn_intercalate separator apart (mt List.map_eq_nil_iff.mp split.nonempty)]
  rw [pieces, parts, List.map_map]
  simp only [Function.comp_def, String.ofList_toList, List.map_id']

instance : Decidable (SplitsInto separator s items) :=
  decidable_of_iff (items = pieces separator s) ⟨fun same => same ▸ splitsInto_pieces separator s, eq_pieces⟩

theorem eq (split : SplitsInto separator s items) (other : SplitsInto separator s others) : items = others :=
  split.eq_pieces.trans other.eq_pieces.symm

theorem append (first : SplitsInto separator s items) (second : SplitsInto separator t others) :
    SplitsInto separator (s ++ String.singleton separator ++ t) (items ++ others) := by
  refine ⟨List.append_ne_nil_of_left_ne_nil first.nonempty _, ?_, ?_⟩
  · exact List.forall_mem_append.mpr ⟨first.apart, second.apart⟩
  · rw [String.intercalate_append_of_ne_nil first.nonempty second.nonempty, first.joined, second.joined]

theorem singleton (whole : separator ∉ s.toList) : SplitsInto separator s [s] :=
  ⟨List.cons_ne_nil _ _, List.forall_mem_singleton.mpr whole, String.intercalate_singleton⟩

/-- Where there is more than one item, there is a separator between the first two. -/
theorem separator_mem (split : SplitsInto separator s items) (several : 2 ≤ items.length) : separator ∈ s.toList := by
  match items, several with
  | w :: v :: rest, _ =>
    rw [split.toList_eq, List.map_cons, List.map_cons, List.intercalate_cons_cons]
    exact List.mem_append_left _ (List.mem_append_right _ List.mem_cons_self)

end SplitsInto

section Joined

variable {separator : Char} {left right : List Char} {words : List (List Char)}

/-- Words joined by a separator with blanks around it are its pieces, up to blanks. More blanks may stand in front. -/
theorem map_trimChars_piecesOf_joined (visible : isBlank separator = false)
    (blankLeft : ∀ c ∈ left, isBlank c = true) (blankRight : ∀ c ∈ right, isBlank c = true)
    (each : ∀ w ∈ words, separator ∉ w ∧ trimChars w = w) (nonempty : words ≠ []) {before : List Char}
    (blankBefore : ∀ c ∈ before, isBlank c = true) :
    (piecesOf separator (before ++ (left ++ separator :: right).intercalate words)).map trimChars = words := by
  rw [piecesOf_eq_splitOn]
  -- The blanks after a separator stand in front of the words that follow it.
  induction words generalizing before with
  | nil => exact absurd rfl nonempty
  | cons w rest ih =>
    obtain ⟨⟨apart, trimmed⟩, others⟩ := List.forall_mem_cons.mp each
    cases rest with
    | nil =>
      have whole : separator ∉ before ++ w := by
        simp only [List.mem_append, not_or]
        exact ⟨not_mem_of_visible visible blankBefore, apart⟩
      have nothing : ∀ c ∈ ([] : List Char), isBlank c = true := nofun
      have own := trimChars_padded blankBefore nothing w
      rw [List.append_nil, trimmed] at own
      rw [List.intercalate_singleton, List.splitOn_eq_singleton whole, List.map_singleton, own]
    | cons w' rest =>
      have whole : separator ∉ before ++ w ++ left := by
        simp only [List.mem_append, not_or]
        exact ⟨⟨not_mem_of_visible visible blankBefore, apart⟩, not_mem_of_visible visible blankLeft⟩
      have shape : before ++ (left ++ separator :: right).intercalate (w :: w' :: rest) =
          (before ++ w ++ left) ++
            separator :: (right ++ (left ++ separator :: right).intercalate (w' :: rest)) := by
        rw [List.intercalate_cons_cons]
        simp only [List.append_assoc, List.cons_append]
      have later := ih others (List.cons_ne_nil w' rest) blankRight
      rw [shape, List.splitOn_append_cons_self_of_not_mem whole, List.map_cons, later,
        trimChars_padded blankBefore blankLeft, trimmed]

end Joined

end AccessControl
