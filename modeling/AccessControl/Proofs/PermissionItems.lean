import AccessControl.Proofs.PermissionBits
import AccessControl.Proofs.TextPieces
import AccessControl.Proofs.Traversals

namespace AccessControl

namespace BasicPermission

/-- The text is the word for this permission. Writing is updating. -/
def NamedBy (b : BasicPermission) (w : String) : Prop := SameWord w b.word ∨ b = .update ∧ SameWord w "write"

variable {b b' : BasicPermission} {w v : String}

theorem namedBy_word (b : BasicPermission) : b.NamedBy b.word := .inl (.refl b.word)

theorem NamedBy.of_sameWord (named : b.NamedBy w) (same : SameWord v w) : b.NamedBy v :=
  named.imp same.trans fun ⟨updates, writes⟩ => ⟨updates, same.trans writes⟩

theorem lowerAscii_trim_word (b : BasicPermission) : lowerAscii (trim b.word) = b.word := by
  cases b <;> decide

theorem namedBy_iff : b.NamedBy w ↔ b.word = lowerAscii (trim w) ∨ b = .update ∧ lowerAscii (trim w) = "write" := by
  have write : lowerAscii (trim "write") = "write" := by decide
  rw [NamedBy, sameWord_iff, sameWord_iff, lowerAscii_trim_word, write, eq_comm]

theorem find?_word {item : String} : all.find? (·.word == item) = some b ↔ b.word = item := by
  constructor
  · intro found
    have named := List.find?_some found
    exact beq_iff_eq.mp named
  · rintro rfl
    cases b <;> decide

/-- A word is read as the permission that it names, and there is an error for a word that names none. -/
theorem ofText_cases (w : String) : (∃ b, ofText w = .ok b ∧ ∀ b', b'.NamedBy w ↔ b' = b) ∨
    ofText w = .error (.invalid s!"unknown ACL permission '{lowerAscii (trim w)}'") ∧
      ∀ b : BasicPermission, ¬b.NamedBy w := by
  simp only [ofText, namedBy_iff, beq_iff_eq]
  generalize lowerAscii (trim w) = item
  split_ifs with writes
  · -- The other word for updating is no permission's own word.
    subst writes
    have none : ∀ b : BasicPermission, b.word ≠ "write" := fun b => by cases b <;> decide
    exact .inl ⟨update, rfl, fun b' => by simp only [none, false_or, and_true]⟩
  · cases found : all.find? (·.word == item) with
    | some b =>
      have own := find?_word.mp found
      refine .inl ⟨b, rfl, fun b' => ?_⟩
      simp only [writes, and_false, or_false]
      rw [← find?_word, found, Option.some.injEq, eq_comm]
    | none =>
      refine .inr ⟨rfl, fun b => ?_⟩
      simp only [writes, and_false, or_false]
      intro own
      rw [find?_word.mpr own] at found
      cases found

theorem NamedBy.eq (named : b.NamedBy w) (named' : b'.NamedBy w) : b = b' := by
  rcases ofText_cases w with ⟨found, _, only⟩ | ⟨_, none⟩
  · rw [(only b).mp named, (only b').mp named']
  · exact absurd named (none b)

end BasicPermission

/-- Every item of one list is the same word as some item of the other, whatever their order and number. -/
structure SameItems (items others : List String) : Prop where
  there : ∀ w ∈ items, ∃ v ∈ others, SameWord w v
  back : ∀ v ∈ others, ∃ w ∈ items, SameWord v w

instance (items others : List String) : Decidable (SameItems items others) :=
  decidable_of_iff (_ ∧ _) ⟨fun ⟨there, back⟩ => ⟨there, back⟩, fun same => ⟨same.there, same.back⟩⟩

theorem SameItems.symm {items others : List String} (same : SameItems items others) : SameItems others items :=
  ⟨same.back, same.there⟩

namespace Permission

variable {s t w v : String} {items others : List String} {p q r : Permission} {e : Error}

/-- The text is a word for a whole set of permissions. -/
def Shorthand (s : String) : Prop := SameWord s "all" ∨ SameWord s "none" ∨ SameWord s ""

instance (s : String) : Decidable (Shorthand s) := inferInstanceAs (Decidable (_ ∨ _ ∨ _))

/-- The text names a permission. -/
def Recognised (w : String) : Prop := ∃ b : BasicPermission, b.NamedBy w

/-- The text names no permission, and the error says so. It shows the text trimmed and in small letters. -/
structure Rejected (w : String) (e : Error) : Prop where
  unknown : ¬Recognised w
  eq_invalid : e = .invalid s!"unknown ACL permission '{lowerAscii (trim w)}'"

/-- Each of the items names a permission, and the set is made of these. -/
structure Grants (items : List String) (p : Permission) : Prop where
  recognised : ∀ w ∈ items, Recognised w
  has_iff : ∀ i, p.Has i ↔ ∃ w ∈ items, ∃ b : BasicPermission, b.NamedBy w ∧ b.place = i

theorem shorthand_iff : Shorthand s ↔
    lowerAscii (trim s) = "all" ∨ lowerAscii (trim s) = "none" ∨ lowerAscii (trim s) = "" := by
  have all : lowerAscii (trim "all") = "all" := by decide
  have none : lowerAscii (trim "none") = "none" := by decide
  have nothing : lowerAscii (trim "") = "" := by decide
  rw [Shorthand, sameWord_iff, sameWord_iff, sameWord_iff, all, none, nothing]

/-- A shorthand is read as the set that it stands for, every other text item by item. -/
theorem ofText_cases (s : String) : Shorthand s ∧ (ofText s = .ok full ∨ ofText s = .ok empty) ∨
    ¬Shorthand s ∧ ofText s = ofItems (pieces ',' s) := by
  simp only [shorthand_iff, ofText, shorthand?, beq_iff_eq, Bool.or_eq_true]
  split_ifs with whole nothing
  · exact .inl ⟨.inl whole, .inl rfl⟩
  · exact .inl ⟨.inr nothing, .inr rfl⟩
  · exact .inr ⟨not_or.mpr ⟨whole, nothing⟩, rfl⟩

theorem Shorthand.comma_not_mem (short : Shorthand s) : ',' ∉ s.toList := by
  intro comma
  have visible : isBlank ',' = false := by decide
  have inside : ',' ∈ (lowerAscii (trim s)).toList := by
    rw [lowerAscii, trim, String.toList_ofList, String.toList_ofList]
    exact List.mem_map.mpr ⟨',', mem_trimChars visible comma, rfl⟩
  rcases shorthand_iff.mp short with whole | none | nothing
  · rw [whole] at inside
    exact absurd inside (by decide)
  · rw [none] at inside
    exact absurd inside (by decide)
  · rw [nothing] at inside
    exact absurd inside (by decide)

theorem Recognised.not_shorthand (known : Recognised w) : ¬Shorthand w := by
  obtain ⟨b, named⟩ := known
  have other : ∀ b : BasicPermission, b.word ≠ "all" ∧ b.word ≠ "none" ∧ b.word ≠ "" := fun b => by
    cases b <;> decide
  rw [shorthand_iff]
  rcases BasicPermission.namedBy_iff.mp named with own | ⟨_, writes⟩
  · rw [← own]
    simp only [other b, or_self, not_false_eq_true]
  · rw [writes]
    decide

/-- A text with a permission among its items is no shorthand. -/
theorem not_shorthand_of_recognised (split : SplitsInto ',' s items) (member : w ∈ items) (known : Recognised w) :
    ¬Shorthand s := by
  intro short
  have single := split.eq (.singleton short.comma_not_mem)
  rw [single, List.mem_singleton] at member
  exact known.not_shorthand (member ▸ short)

theorem not_shorthand_of_several (split : SplitsInto ',' s items) (several : 2 ≤ items.length) : ¬Shorthand s :=
  fun short => short.comma_not_mem (split.separator_mem several)

namespace Grants

theorem nil : Grants [] empty := by
  refine ⟨nofun, fun i => ?_⟩
  simp only [not_has_empty, List.not_mem_nil, false_and, exists_false]

theorem singleton {b : BasicPermission} (named : b.NamedBy w) : Grants [w] b.toPermission := by
  refine ⟨List.forall_mem_singleton.mpr ⟨b, named⟩, fun i => ?_⟩
  rw [b.toPermission_eq_single, has_single b.place_lt]
  simp only [List.mem_singleton, exists_eq_left]
  constructor
  · exact fun here => ⟨b, named, here⟩
  · rintro ⟨b', named', here⟩
    rw [named.eq named', here]

theorem append (first : Grants items p) (second : Grants others q) : Grants (items ++ others) (p.union q) := by
  refine ⟨List.forall_mem_append.mpr ⟨first.recognised, second.recognised⟩, fun i => ?_⟩
  rw [has_union, first.has_iff, second.has_iff]
  simp only [List.mem_append, or_and_right, exists_or]

theorem eq (first : Grants items p) (second : Grants items q) : p = q :=
  ext_has fun i => (first.has_iff i).trans (second.has_iff i).symm

theorem congr (same : SameItems items others) (grants : Grants items p) : Grants others p := by
  constructor
  · intro v member
    obtain ⟨w, inside, same⟩ := same.back v member
    obtain ⟨b, named⟩ := grants.recognised w inside
    exact ⟨b, named.of_sameWord same⟩
  · intro i
    rw [grants.has_iff]
    constructor
    · rintro ⟨w, inside, b, named, here⟩
      obtain ⟨v, member, same⟩ := same.there w inside
      exact ⟨v, member, b, named.of_sameWord same.symm, here⟩
    · rintro ⟨v, member, b, named, here⟩
      obtain ⟨w, inside, same⟩ := same.back v member
      exact ⟨w, inside, b, named.of_sameWord same.symm, here⟩

end Grants

/-- One more item adds the permission that it names, or is itself the error. -/
theorem union_item_cases (seen : List String) (p : Permission) (w : String) (grants : Grants seen p) :
    (∃ next, (BasicPermission.ofText w).map (fun b => p.union b.toPermission) = .ok next ∧
      Grants (seen ++ [w]) next) ∨
    ∃ e, (BasicPermission.ofText w).map (fun b => p.union b.toPermission) = .error e ∧ Rejected w e := by
  rcases BasicPermission.ofText_cases w with ⟨b, read, only⟩ | ⟨read, none⟩
  · have named : b.NamedBy w := (only b).mpr rfl
    exact .inl ⟨p.union b.toPermission, by rw [read]; rfl, grants.append (.singleton named)⟩
  · exact .inr ⟨_, by rw [read]; rfl, fun ⟨b, named⟩ => none b named, rfl⟩

/-- A list of items is read as the set that they grant, or the first item that names nothing is the error. -/
theorem ofItems_cases (items : List String) : (∃ p, ofItems items = .ok p ∧ Grants items p) ∨
    ∃ before w after e, items = before ++ w :: after ∧ (∀ v ∈ before, Recognised v) ∧ Rejected w e ∧
      ofItems items = .error e := by
  -- The set so far is what the items read so far grant.
  rcases foldlM_cases Grants (fun _ => Rejected) union_item_cases Grants.nil items with
    ⟨p, run, grants⟩ | ⟨before, w, after, e, split, ⟨p, grants⟩, rejected, run⟩
  · exact .inl ⟨p, run, grants⟩
  · exact .inr ⟨before, w, after, e, split, grants.recognised, rejected, run⟩

theorem exists_grants (each : ∀ w ∈ items, Recognised w) : ∃ p, Grants items p := by
  rcases ofItems_cases items with ⟨p, _, grants⟩ | ⟨before, w, after, _, split, _, rejected, _⟩
  · exact ⟨p, grants⟩
  · refine absurd (each w ?_) rejected.unknown
    rw [split]
    exact List.mem_append_right before List.mem_cons_self

theorem grants_append_iff :
    Grants (items ++ others) r ↔ ∃ p q, Grants items p ∧ Grants others q ∧ r = p.union q := by
  constructor
  · intro grants
    obtain ⟨recognised, recognised'⟩ := List.forall_mem_append.mp grants.recognised
    obtain ⟨p, first⟩ := exists_grants recognised
    obtain ⟨q, second⟩ := exists_grants recognised'
    exact ⟨p, q, first, second, grants.eq (first.append second)⟩
  · rintro ⟨p, q, first, second, rfl⟩
    exact first.append second

theorem ofItems_eq_ok : ofItems items = .ok p ↔ Grants items p := by
  rcases ofItems_cases items with ⟨p', run, grants⟩ | ⟨before, w, after, e, split, _, rejected, run⟩
  · rw [run, Except.ok.injEq]
    constructor
    · rintro rfl
      exact grants
    · exact grants.eq
  · rw [run]
    refine ⟨nofun, fun grants => absurd (grants.recognised w ?_) rejected.unknown⟩
    rw [split]
    exact List.mem_append_right before List.mem_cons_self

theorem ofText_of_not_shorthand (plain : ¬Shorthand s) : ofText s = ofItems (pieces ',' s) := by
  rcases ofText_cases s with ⟨short, _⟩ | ⟨_, read⟩
  · exact absurd short plain
  · exact read

/-- A text that is no shorthand is read as the set that its items grant. -/
theorem ofText_eq_ok (plain : ¬Shorthand s) (split : SplitsInto ',' s items) : ofText s = .ok p ↔ Grants items p := by
  rw [ofText_of_not_shorthand plain, ← split.eq_pieces, ofItems_eq_ok]

theorem ofText_append (plain : ¬Shorthand s) (plain' : ¬Shorthand t) :
    ofText (s ++ "," ++ t) = .ok r ↔ ∃ p q, ofText s = .ok p ∧ ofText t = .ok q ∧ r = p.union q := by
  have split := splitsInto_pieces ',' s
  have split' := splitsInto_pieces ',' t
  have joined : SplitsInto ',' (s ++ "," ++ t) (pieces ',' s ++ pieces ',' t) := split.append split'
  have several : 2 ≤ (pieces ',' s ++ pieces ',' t).length := by
    have first := List.length_pos_of_ne_nil split.nonempty
    have second := List.length_pos_of_ne_nil split'.nonempty
    rw [List.length_append]
    omega
  rw [ofText_eq_ok (not_shorthand_of_several joined several) joined, grants_append_iff]
  simp only [ofText_eq_ok plain split, ofText_eq_ok plain' split']

/-- A word for a whole set is no item of a longer list. -/
theorem exists_error_of_shorthand_item (split : SplitsInto ',' s items) (several : 2 ≤ items.length)
    (member : w ∈ items) (short : Shorthand w) : ∃ e, ofText s = .error e := by
  cases read : ofText s with
  | error e => exact ⟨e, rfl⟩
  | ok p =>
    have grants := (ofText_eq_ok (not_shorthand_of_several split several) split).mp read
    exact absurd short (grants.recognised w member).not_shorthand

theorem ofText_eq_error (failed : ofText s = .error e) : ∃ before w after,
    SplitsInto ',' s (before ++ w :: after) ∧ (∀ v ∈ before, Recognised v) ∧ Rejected w e := by
  rcases ofText_cases s with ⟨_, whole | nothing⟩ | ⟨_, read⟩
  · rw [whole] at failed
    cases failed
  · rw [nothing] at failed
    cases failed
  · rw [read] at failed
    rcases ofItems_cases (pieces ',' s) with ⟨p, run, _⟩ | ⟨before, w, after, e', split, earlier, rejected, run⟩
    · rw [run] at failed
      cases failed
    · rw [run] at failed
      cases failed
      exact ⟨before, w, after, split ▸ splitsInto_pieces ',' s, earlier, rejected⟩

section Shown

/-- Every bit of the set has a name. -/
def Named (p : Permission) : Prop := ∀ i, p.Has i → i < 4

theorem has_full {i : Nat} : full.Has i ↔ i < 4 := by
  unfold Has full
  by_cases bound : i < 8
  · have each : ∀ i < 8, (15 : BitVec 8).getLsbD i = true ↔ i < 4 := by decide
    exact each i bound
  · rw [BitVec.getLsbD_of_ge _ _ (Nat.le_of_not_lt bound)]
    exact ⟨nofun, fun low => by omega⟩

theorem Grants.named (grants : Grants items p) : p.Named := by
  intro i bit
  obtain ⟨_, _, b, _, rfl⟩ := (grants.has_iff i).mp bit
  cases b <;> decide

theorem named_of_ofText (read : ofText s = .ok p) : p.Named := by
  rcases ofText_cases s with ⟨_, whole | nothing⟩ | ⟨plain, _⟩
  · rw [whole] at read
    cases read
    exact fun i => has_full.mp
  · rw [nothing] at read
    cases read
    exact fun i bit => absurd bit (not_has_empty i)
  · exact ((ofText_eq_ok plain (splitsInto_pieces ',' s)).mp read).named

theorem grants_basics (named : p.Named) : Grants (p.basics.map BasicPermission.word) p := by
  refine ⟨List.forall_mem_map.mpr fun b _ => ⟨b, b.namedBy_word⟩, fun i => ?_⟩
  simp only [List.mem_map, exists_exists_and_eq_and]
  constructor
  · intro bit
    obtain ⟨b, rfl⟩ := BasicPermission.exists_place (named i bit)
    exact ⟨b, mem_basics.mpr bit, b, b.namedBy_word, rfl⟩
  · rintro ⟨b, member, b', named', rfl⟩
    rw [← b.namedBy_word.eq named']
    exact mem_basics.mp member

theorem splitsInto_text (some : p.basics ≠ []) : SplitsInto ',' p.text (p.basics.map BasicPermission.word) := by
  refine ⟨mt List.map_eq_nil_iff.mp some, List.forall_mem_map.mpr fun b _ => ?_, ?_⟩
  · cases b <;> decide
  · rw [text, if_neg (mt List.isEmpty_iff.mp some)]
    rfl

/-- A set whose bits have names is read back from its text. -/
theorem ofText_text (named : p.Named) : ofText p.text = .ok p := by
  have grants := grants_basics named
  cases shown : p.basics with
  | nil =>
    have nothing : ofText "none" = .ok empty := by decide
    rw [shown] at grants
    rw [text, shown, grants.eq .nil]
    exact nothing
  | cons b rest =>
    have split := splitsInto_text (p := p) (by rw [shown]; exact List.cons_ne_nil b rest)
    have member : b.word ∈ p.basics.map BasicPermission.word :=
      List.mem_map_of_mem (shown ▸ List.mem_cons_self)
    have plain := not_shorthand_of_recognised split member ⟨b, b.namedBy_word⟩
    exact (ofText_eq_ok plain split).mpr grants

end Shown

/-- Reading a set of permissions unites what its items name. What comes of it depends on the items only as words in any
order, a word for a whole set counts only when it is the whole text, the error is that of the first item that names no
permission, and the text of what has been read is read as the same set. -/
theorem ofText_unites_items :
    (∀ s items, ¬Shorthand s → SplitsInto ',' s items → ∀ p, ofText s = .ok p ↔ Grants items p) ∧
    (∀ a b, ¬Shorthand a → ¬Shorthand b → ∀ r, ofText (a ++ "," ++ b) = .ok r ↔
      ∃ p q, ofText a = .ok p ∧ ofText b = .ok q ∧ r = p.union q) ∧
    (∀ s t items others, ¬Shorthand s → ¬Shorthand t → SplitsInto ',' s items → SplitsInto ',' t others →
      SameItems items others → ∀ p, ofText s = .ok p ↔ ofText t = .ok p) ∧
    (∀ s items, SplitsInto ',' s items → 2 ≤ items.length → (∃ w ∈ items, Shorthand w) → ∃ e, ofText s = .error e) ∧
    (∀ s e, ofText s = .error e → ∃ before w after, SplitsInto ',' s (before ++ w :: after) ∧
      (∀ v ∈ before, Recognised v) ∧ ¬Recognised w ∧
      e = .invalid s!"unknown ACL permission '{lowerAscii (trim w)}'") ∧
    ∀ s p, ofText s = .ok p → ofText p.text = .ok p := by
  refine ⟨?_, ?_, ?_, ?_, ?_, ?_⟩
  · intro s items plain split p
    exact ofText_eq_ok plain split
  · intro a b plain plain' r
    exact ofText_append plain plain'
  · intro s t items others plain plain' split split' same p
    rw [ofText_eq_ok plain split, ofText_eq_ok plain' split']
    exact ⟨Grants.congr same, Grants.congr same.symm⟩
  · rintro s items split several ⟨w, member, short⟩
    exact exists_error_of_shorthand_item split several member short
  · intro s e failed
    obtain ⟨before, w, after, split, earlier, rejected⟩ := ofText_eq_error failed
    exact ⟨before, w, after, split, earlier, rejected.unknown, rejected.eq_invalid⟩
  · intro s p read
    exact ofText_text (named_of_ofText read)

/-- Blanks, capitals, repeated items, the other word for updating, and words for whole sets among the items. -/
theorem ofText_unites_items_mixed :
    ofText (" Read" ++ "," ++ "WRITE,read\t") = .ok ⟨3⟩ ∧
    ofText "read,Delete ,read" = .ok ⟨9⟩ ∧
    (∃ e, ofText "read, All" = .error e) ∧
    (∃ before w after, SplitsInto ',' "Create, Wr ITE,none" (before ++ w :: after) ∧
      (∀ v ∈ before, Recognised v) ∧ ¬Recognised w ∧
      Error.invalid "unknown ACL permission 'wr ite'" =
        .invalid s!"unknown ACL permission '{lowerAscii (trim w)}'") ∧
    ofText (⟨2⟩ : Permission).text = .ok ⟨2⟩ := by
  obtain ⟨_, append, same, whole, error, shown⟩ := ofText_unites_items
  have capitals : SplitsInto ',' "DELETE, read" ["DELETE", " read"] := by decide +kernel
  have repeated : SplitsInto ',' "read,Delete ,read" ["read", "Delete ", "read"] := by decide +kernel
  have words : SameItems ["DELETE", " read"] ["read", "Delete ", "read"] := by decide +kernel
  have everything : SplitsInto ',' "read, All" ["read", " All"] := by decide +kernel
  refine ⟨?_, ?_, ?_, ?_, ?_⟩
  · refine (append " Read" "WRITE,read\t" (by decide) (by decide) ⟨3⟩).mpr ⟨⟨1⟩, ⟨3⟩, ?_, ?_, rfl⟩
    · decide
    · decide
  · exact (same _ _ _ _ (by decide) (by decide) capitals repeated words ⟨9⟩).mp (by decide)
  · exact whole _ _ everything (by decide) ⟨" All", by decide, by decide⟩
  · exact error _ _ (by decide)
  · exact shown "write" ⟨2⟩ (by decide)

end Permission

end AccessControl
