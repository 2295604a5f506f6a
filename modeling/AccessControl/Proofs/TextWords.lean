import AccessControl.Text
import Mathlib.Data.List.TakeWhile

namespace AccessControl

theorem toNat_toUpper (c : Char) :
    c.toUpper.toNat = if 97 ≤ c.toNat ∧ c.toNat ≤ 122 then c.toNat - 32 else c.toNat := by
  have small : ('a'.val ≤ c.val ∧ c.val ≤ 'z'.val) ↔ 97 ≤ c.toNat ∧ c.toNat ≤ 122 := by
    rw [UInt32.le_iff_toNat_le, UInt32.le_iff_toNat_le]
    exact Iff.rfl
  unfold Char.toUpper
  split_ifs with letter range range
  · -- The letter moves down by a subtraction that wraps around.
    have moved : (c.val + ('A'.val - 'a'.val)).toNat = (c.toNat + 4294967264) % 4294967296 := UInt32.toNat_add _ _
    change (c.val + ('A'.val - 'a'.val)).toNat = _
    omega
  · exact absurd (small.mp letter) range
  · exact absurd (small.mpr range) letter
  · rfl

theorem toNat_toLower (c : Char) :
    c.toLower.toNat = if 65 ≤ c.toNat ∧ c.toNat ≤ 90 then c.toNat + 32 else c.toNat := by
  have capital : (c.val ≥ 'A'.val ∧ c.val ≤ 'Z'.val) ↔ 65 ≤ c.toNat ∧ c.toNat ≤ 90 := by
    rw [ge_iff_le, UInt32.le_iff_toNat_le, UInt32.le_iff_toNat_le]
    exact Iff.rfl
  unfold Char.toLower
  split_ifs with letter range range
  · have moved : (c.val + ('a'.val - 'A'.val)).toNat = (c.toNat + 32) % 4294967296 := UInt32.toNat_add _ _
    change (c.val + ('a'.val - 'A'.val)).toNat = _
    omega
  · exact absurd (capital.mp letter) range
  · exact absurd (capital.mpr range) letter
  · rfl

theorem toUpper_toLower (c : Char) : c.toLower.toUpper = c.toUpper := by
  rw [← Char.toNat_inj, toNat_toUpper, toNat_toUpper, toNat_toLower]
  split_ifs <;> omega

theorem isBlank_toLower (c : Char) : isBlank c.toLower = isBlank c := by
  rw [Bool.eq_iff_iff]
  simp only [isBlank, toNat_toLower, Bool.or_eq_true, Bool.and_eq_true, decide_eq_true_eq, beq_iff_eq]
  split_ifs with capital
  · omega
  · rfl

/-- Blanks around a text do not count. -/
theorem trimChars_padded {before after : List Char} (blankBefore : ∀ c ∈ before, isBlank c = true)
    (blankAfter : ∀ c ∈ after, isBlank c = true) (word : List Char) :
    trimChars (before ++ word ++ after) = trimChars word := by
  unfold trimChars
  rw [List.append_assoc, List.dropWhile_append_of_pos blankBefore, List.dropWhile_append]
  split_ifs with nothing
  · have allBlank : after.dropWhile isBlank = [] := List.dropWhile_eq_nil_iff.mpr blankAfter
    rw [allBlank, List.isEmpty_iff.mp nothing]
  · have blankReversed : ∀ c ∈ after.reverse, isBlank c = true := fun c member =>
      blankAfter c (List.mem_reverse.mp member)
    rw [List.reverse_append, List.dropWhile_append_of_pos blankReversed]

/-- What is trimmed away is blanks. -/
theorem exists_padding (cs : List Char) :
    ∃ before after, cs = before ++ trimChars cs ++ after ∧ ∀ c ∈ before ++ after, isBlank c = true := by
  have back := (cs.dropWhile isBlank).reverse.takeWhile_append_dropWhile (p := isBlank)
  have rest : cs.dropWhile isBlank = trimChars cs ++ ((cs.dropWhile isBlank).reverse.takeWhile isBlank).reverse := by
    rw [trimChars, ← List.reverse_append, back, List.reverse_reverse]
  refine ⟨cs.takeWhile isBlank, ((cs.dropWhile isBlank).reverse.takeWhile isBlank).reverse, ?_, ?_⟩
  · rw [List.append_assoc, ← rest, List.takeWhile_append_dropWhile]
  · intro c member
    rcases List.mem_append.mp member with front | behind
    · exact List.mem_takeWhile_imp front
    · exact List.mem_takeWhile_imp (List.mem_reverse.mp behind)

theorem not_mem_of_visible {c : Char} {blanks : List Char} (visible : isBlank c = false)
    (blank : ∀ d ∈ blanks, isBlank d = true) : c ∉ blanks := fun member => by
  rw [blank c member] at visible
  cases visible

theorem mem_trimChars {cs : List Char} {c : Char} (visible : isBlank c = false) (member : c ∈ cs) :
    c ∈ trimChars cs := by
  obtain ⟨before, after, split, blanks⟩ := exists_padding cs
  have outside := not_mem_of_visible visible blanks
  rw [List.mem_append, not_or] at outside
  rw [split, List.mem_append, List.mem_append] at member
  rcases member with (front | inside) | behind
  · exact absurd front outside.1
  · exact inside
  · exact absurd behind outside.2

theorem mem_of_mem_trimChars {cs : List Char} {c : Char} (member : c ∈ trimChars cs) : c ∈ cs := by
  obtain ⟨before, after, split, _⟩ := exists_padding cs
  rw [split]
  exact List.mem_append_left _ (List.mem_append_right before member)

theorem trimChars_eq_nil_iff {cs : List Char} : trimChars cs = [] ↔ ∀ c ∈ cs, isBlank c = true := by
  constructor
  · intro nothing
    obtain ⟨before, after, split, blanks⟩ := exists_padding cs
    rw [nothing, List.append_nil] at split
    rw [split]
    exact blanks
  · intro blank
    have nothing : ∀ c ∈ ([] : List Char), isBlank c = true := nofun
    have own := trimChars_padded blank nothing []
    rwa [List.append_nil, List.append_nil] at own

/-- A second trimming changes nothing. -/
theorem trimChars_trimChars (cs : List Char) : trimChars (trimChars cs) = trimChars cs := by
  obtain ⟨before, after, split, blanks⟩ := exists_padding cs
  obtain ⟨blankBefore, blankAfter⟩ := List.forall_mem_append.mp blanks
  have outer := trimChars_padded blankBefore blankAfter (trimChars cs)
  rw [← split] at outer
  exact outer.symm

theorem length_trimChars_le (cs : List Char) : (trimChars cs).length ≤ cs.length := by
  obtain ⟨before, after, split, _⟩ := exists_padding cs
  have whole := congrArg List.length split
  rw [List.length_append, List.length_append] at whole
  omega

theorem trimChars_cons_of_blank {c : Char} (blank : isBlank c = true) (rest : List Char) :
    trimChars (c :: rest) = trimChars rest := by
  have nothing : ∀ c ∈ ([] : List Char), isBlank c = true := nofun
  have padded := trimChars_padded (List.forall_mem_singleton.mpr blank) nothing rest
  rwa [List.append_nil, List.singleton_append] at padded

theorem trimChars_concat_of_blank {c : Char} (blank : isBlank c = true) (front : List Char) :
    trimChars (front ++ [c]) = trimChars front := by
  have nothing : ∀ c ∈ ([] : List Char), isBlank c = true := nofun
  have padded := trimChars_padded nothing (List.forall_mem_singleton.mpr blank) front
  rwa [List.nil_append] at padded

/-- Trimming leaves exactly the texts as they are that neither start nor end with a blank. -/
theorem trimChars_eq_self_iff {cs : List Char} :
    trimChars cs = cs ↔ (∀ c ∈ cs.head?, isBlank c = false) ∧ ∀ c ∈ cs.getLast?, isBlank c = false := by
  constructor
  · -- Without a blank at one of its ends, the text would be too short.
    intro trimmed
    refine ⟨fun c first => ?_, fun c last => ?_⟩
    · obtain ⟨rest, rfl⟩ := List.head?_eq_some_iff.mp first
      by_contra blank
      have bound := length_trimChars_le rest
      rw [← trimChars_cons_of_blank (eq_true_of_ne_false blank), trimmed, List.length_cons] at bound
      omega
    · obtain ⟨front, rfl⟩ := List.getLast?_eq_some_iff.mp last
      by_contra blank
      have bound := length_trimChars_le front
      rw [← trimChars_concat_of_blank (eq_true_of_ne_false blank), trimmed, List.length_append,
        List.length_singleton] at bound
      omega
  · rintro ⟨front, back⟩
    obtain ⟨before, after, split, blanks⟩ := exists_padding cs
    obtain ⟨blankBefore, blankAfter⟩ := List.forall_mem_append.mp blanks
    have noneBefore : before = [] := by
      cases before with
      | nil => rfl
      | cons c rest =>
        have visible := front c (by rw [split]; rfl)
        rw [blankBefore c List.mem_cons_self] at visible
        cases visible
    have noneAfter : after = [] := by
      rcases List.eq_nil_or_concat after with none | ⟨rest, c, shape⟩
      · exact none
      · rw [List.concat_eq_append] at shape
        have visible := back c (by rw [split, shape, ← List.append_assoc]; exact List.getLast?_concat)
        rw [blankAfter c (shape ▸ List.mem_append_right rest List.mem_cons_self)] at visible
        cases visible
    rw [noneBefore, noneAfter, List.nil_append, List.append_nil] at split
    exact split.symm

theorem trimChars_of_no_blanks {cs : List Char} (solid : ∀ c ∈ cs, isBlank c = false) : trimChars cs = cs :=
  trimChars_eq_self_iff.mpr
    ⟨fun c first => solid c (List.mem_of_mem_head? first), fun c last => solid c (List.mem_of_getLast? last)⟩

theorem trimChars_map {f : Char → Char} (keeps : ∀ c, isBlank (f c) = isBlank c) (cs : List Char) :
    trimChars (cs.map f) = (trimChars cs).map f := by
  have same : isBlank ∘ f = isBlank := funext keeps
  unfold trimChars
  rw [List.dropWhile_map, same, ← List.map_reverse, List.dropWhile_map, same, List.map_reverse]

/-- Two texts that differ at most in the case of ASCII letters and in the blanks around them. -/
def SameWord (s t : String) : Prop :=
  ∃ before word after before' word' after' : List Char,
    s.toList = before ++ word ++ after ∧ t.toList = before' ++ word' ++ after' ∧
    (∀ c ∈ before ++ after ++ before' ++ after', isBlank c = true) ∧ word.map Char.toLower = word'.map Char.toLower

/-- Two texts are the same word exactly when trimming them and making their letters small comes to the same text. -/
theorem sameWord_iff {s t : String} : SameWord s t ↔ lowerAscii (trim s) = lowerAscii (trim t) := by
  simp only [lowerAscii, trim, String.toList_ofList, String.ofList_inj]
  constructor
  · rintro ⟨before, word, after, before', word', after', split, split', blanks, lower⟩
    simp only [List.forall_mem_append] at blanks
    obtain ⟨⟨⟨blankBefore, blankAfter⟩, blankBefore'⟩, blankAfter'⟩ := blanks
    rw [split, split', trimChars_padded blankBefore blankAfter, trimChars_padded blankBefore' blankAfter',
      ← trimChars_map isBlank_toLower, ← trimChars_map isBlank_toLower, lower]
  · intro lower
    obtain ⟨before, after, split, blanks⟩ := exists_padding s.toList
    obtain ⟨before', after', split', blanks'⟩ := exists_padding t.toList
    refine ⟨before, _, after, before', _, after', split, split', ?_, lower⟩
    rw [List.append_assoc _ before']
    exact List.forall_mem_append.mpr ⟨blanks, blanks'⟩

instance (s t : String) : Decidable (SameWord s t) := decidable_of_iff _ sameWord_iff.symm

namespace SameWord

variable {s t u : String}

theorem refl (s : String) : SameWord s s := sameWord_iff.mpr rfl

theorem symm (same : SameWord s t) : SameWord t s := sameWord_iff.mpr (sameWord_iff.mp same).symm

theorem trans (first : SameWord s t) (second : SameWord t u) : SameWord s u :=
  sameWord_iff.mpr ((sameWord_iff.mp first).trans (sameWord_iff.mp second))

theorem upperAscii_trim_eq (same : SameWord s t) : upperAscii (trim s) = upperAscii (trim t) := by
  have small (cs : List Char) : cs.map Char.toUpper = (cs.map Char.toLower).map Char.toUpper := by
    simp only [List.map_map, Function.comp_def, toUpper_toLower]
  have lower := sameWord_iff.mp same
  simp only [lowerAscii, String.ofList_inj] at lower
  rw [upperAscii, upperAscii, small, lower, ← small]

end SameWord

end AccessControl
