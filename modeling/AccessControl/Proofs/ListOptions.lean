import AccessControl.Options
import AccessControl.Proofs.TextPieces
import AccessControl.Proofs.Traversals
import AccessControl.SortedMap.Lemmas

namespace AccessControl

/-- A text that can stand as it is between commas: it is not empty, has no comma, and neither starts nor ends with a
blank. -/
structure ListWord (w : String) : Prop where
  nonempty : w ≠ ""
  apart : ',' ∉ w.toList
  front : ∀ c ∈ w.toList.head?, isBlank c = false
  back : ∀ c ∈ w.toList.getLast?, isBlank c = false

/-- The pieces of a text are the items in order, each with blanks around it, and pieces of nothing but blanks. -/
inductive Spells : List String → List String → Prop
  | done : Spells [] []
  | blank {piece : String} {pieces items : List String} : isBlankText piece = true → Spells pieces items →
      Spells (piece :: pieces) items
  | item {w piece : String} {pieces items : List String} (before after : List Char) :
      piece.toList = before ++ w.toList ++ after → (∀ c ∈ before ++ after, isBlank c = true) →
      Spells pieces items → Spells (piece :: pieces) (w :: items)

section Items

variable {text piece w : String} {pieces items : List String}

theorem isBlankText_iff {s : String} : isBlankText s = true ↔ ∀ c ∈ s.toList, isBlank c = true := List.all_eq_true

theorem trim_eq_empty_iff {s : String} : trim s = "" ↔ isBlankText s = true := by
  rw [isBlankText_iff, ← trimChars_eq_nil_iff, trim, ← String.toList_inj, String.toList_ofList]
  rfl

theorem listWord_iff : ListWord w ↔ w ≠ "" ∧ ',' ∉ w.toList ∧ trim w = w := by
  have trimmed : trim w = w ↔ trimChars w.toList = w.toList := by
    rw [trim, ← String.toList_inj, String.toList_ofList]
  rw [trimmed, trimChars_eq_self_iff]
  constructor
  · rintro ⟨nonempty, apart, front, back⟩
    exact ⟨nonempty, apart, front, back⟩
  · rintro ⟨nonempty, apart, front, back⟩
    exact ⟨nonempty, apart, front, back⟩

instance (w : String) : Decidable (ListWord w) := decidable_of_iff _ listWord_iff.symm

theorem ListWord.trim_eq (word : ListWord w) : trim w = w := (listWord_iff.mp word).2.2

/-- What is left of a piece between commas, when there is something to see in it. -/
theorem listWord_trim (apart : ',' ∉ piece.toList) (visible : isBlankText piece = false) : ListWord (trim piece) := by
  refine listWord_iff.mpr ⟨fun nothing => ?_, fun comma => ?_, ?_⟩
  · rw [trim_eq_empty_iff.mp nothing] at visible
    cases visible
  · rw [trim, String.toList_ofList] at comma
    exact apart (mem_of_mem_trimChars comma)
  · rw [trim, trim, String.toList_ofList, trimChars_trimChars]

namespace Spells

/-- Items between commas, without more blanks. -/
theorem self (items : List String) : Spells items items := by
  induction items with
  | nil => exact .done
  | cons w rest ih => exact .item [] [] (by rw [List.nil_append, List.append_nil]) nofun ih

/-- All pieces spell the ones that are not blank, trimmed. -/
theorem trimmed (pieces : List String) : Spells pieces ((pieces.filter fun p => !isBlankText p).map trim) := by
  induction pieces with
  | nil => exact .done
  | cons piece rest ih =>
    cases blank : isBlankText piece with
    | true =>
      rw [List.filter_cons_of_neg (by simp [blank])]
      exact .blank blank ih
    | false =>
      obtain ⟨before, after, split, blanks⟩ := exists_padding piece.toList
      rw [List.filter_cons_of_pos (by simp [blank]), List.map_cons]
      exact .item before after (by rw [trim, String.toList_ofList]; exact split) blanks ih

/-- The items that pieces spell are the pieces that are not blank, trimmed. -/
theorem eq_trimmed (spells : Spells pieces items) (words : ∀ w ∈ items, ListWord w) :
    (pieces.filter fun p => !isBlankText p).map trim = items := by
  induction spells with
  | done => rfl
  | blank blank _ ih =>
    rw [List.filter_cons_of_neg (by simp [blank])]
    exact ih words
  | @item w piece _ _ before after split blanks _ ih =>
    obtain ⟨word, others⟩ := List.forall_mem_cons.mp words
    obtain ⟨blankBefore, blankAfter⟩ := List.forall_mem_append.mp blanks
    have same : trim piece = w := by
      rw [trim, split, trimChars_padded blankBefore blankAfter, ← trim, word.trim_eq]
    have visible : isBlankText piece = false := by
      refine Bool.eq_false_iff.mpr fun blank => word.nonempty ?_
      rw [← same, trim_eq_empty_iff.mpr blank]
    rw [List.filter_cons_of_pos (by simp [visible]), List.map_cons, same, ih others]

theorem apart (spells : Spells pieces items) (words : ∀ w ∈ items, ListWord w) : ∀ p ∈ pieces, ',' ∉ p.toList := by
  have visible : isBlank ',' = false := by decide
  induction spells with
  | done => exact nofun
  | blank blank _ ih =>
    exact List.forall_mem_cons.mpr ⟨not_mem_of_visible visible (isBlankText_iff.mp blank), ih words⟩
  | item before after split blanks _ ih =>
    obtain ⟨word, others⟩ := List.forall_mem_cons.mp words
    have outside := not_mem_of_visible visible blanks
    refine List.forall_mem_cons.mpr ⟨fun comma => ?_, ih others⟩
    rw [List.mem_append, not_or] at outside
    rw [split, List.mem_append, List.mem_append] at comma
    rcases comma with (front | inside) | behind
    · exact outside.1 front
    · exact word.apart inside
    · exact outside.2 behind

end Spells

/-- The items of a text are its pieces between commas that are not blank, trimmed. -/
theorem commaItems_eq (split : SplitsInto ',' text pieces) :
    commaItems text = (pieces.filter fun p => !isBlankText p).map trim := by
  rw [split.eq_pieces, commaItems, AccessControl.pieces]
  generalize piecesOf ',' text.toList = parts
  induction parts with
  | nil => rfl
  | cons part rest ih =>
    have same : isBlankText (String.ofList part) = (trimChars part).isEmpty := by
      rw [Bool.eq_iff_iff, isBlankText_iff, String.toList_ofList, List.isEmpty_iff, trimChars_eq_nil_iff]
    simp only [List.map_cons, List.filterMap_cons, List.filter_cons, same]
    cases (trimChars part).isEmpty with
    | true => exact ih
    | false =>
      have own : trim (String.ofList part) = String.ofList (trimChars part) := by rw [trim, String.toList_ofList]
      simp only [Bool.false_eq_true, if_false, Bool.not_false, if_true, List.map_cons, own, ih]

/-- Every text is read as the items that its pieces spell. -/
theorem commaItems_spelled (split : SplitsInto ',' text pieces) :
    (∀ w ∈ commaItems text, ListWord w) ∧ Spells pieces (commaItems text) := by
  rw [commaItems_eq split]
  refine ⟨List.forall_mem_map.mpr fun p member => ?_, .trimmed pieces⟩
  obtain ⟨inside, visible⟩ := List.mem_filter.mp member
  exact listWord_trim (split.apart p inside) (by simpa using visible)

/-- Joined by commas, pieces are read as the items that they spell. -/
theorem commaItems_joined (words : ∀ w ∈ items, ListWord w) (spells : Spells pieces items) :
    commaItems (",".intercalate pieces) = items := by
  cases pieces with
  | nil =>
    cases spells
    rfl
  | cons piece rest =>
    have split : SplitsInto ',' (",".intercalate (piece :: rest)) (piece :: rest) :=
      ⟨List.cons_ne_nil piece rest, spells.apart words, rfl⟩
    rw [commaItems_eq split, spells.eq_trimmed words]

end Items

/-- A value that a list of texts can be written as: one text, or an array of texts. -/
inductive Json.Listable : Json → Prop
  | text (s : String) : Listable (.str s)
  | array (items : List String) : Listable (.strs items)

/-- The part of a value that keeps it from being a list of texts: the first item of an array that is no text, or the
whole value when it is neither a text nor an array. -/
inductive Json.Misfit : Json → Json → Prop
  | item {found : Json} (texts : List String) (after : List Json) : (∀ s, found ≠ .str s) →
      Misfit (.arr (texts.map .str ++ found :: after)) found
  | whole {value : Json} : (∀ s, value ≠ .str s) → (∀ items, value ≠ .arr items) → Misfit value value

theorem Json.exists_texts {items : List Json} (each : ∀ j ∈ items, ∃ s, j = .str s) :
    ∃ texts : List String, items = texts.map .str := by
  obtain ⟨texts, pairs⟩ := exists_forall₂_of_forall_exists each
  refine ⟨texts, ?_⟩
  rwa [← List.forall₂_eq_eq_eq, List.forall₂_map_right_iff]

section Tables

variable {κ α β : Type} [Ord κ] {r : α → β → Prop}

theorem rel_valueIn {entries : List (κ × α)} {others : List (κ × β)}
    (pairs : List.Forall₂ (fun a b => a.1 = b.1 ∧ r a.2 b.2) entries others) (key : κ) :
    Option.Rel r (valueIn entries key) (valueIn others key) := by
  induction pairs with
  | nil => exact .none
  | cons here _ ih =>
    obtain ⟨same, related⟩ := here
    rw [valueIn, valueIn, List.findSome?_cons, List.findSome?_cons, same]
    split_ifs with found
    · exact .some related
    · exact ih

/-- Entries that correspond one by one to those of a map, under the same keys, make a map again. -/
theorem SortedMap.rel_ofList [Std.TransOrd κ] [Std.LawfulEqOrd κ] {m : SortedMap κ α} {entries : List (κ × β)}
    (pairs : List.Forall₂ (fun a b => a.1 = b.1 ∧ r a.2 b.2) m.entries entries) (key : κ) :
    Option.Rel r (m.get? key) ((ofList entries).get? key) := by
  have keys : m.entries.map (·.1) = entries.map (·.1) := by
    rw [← List.forall₂_eq_eq_eq, List.forall₂_map_left_iff, List.forall₂_map_right_iff]
    exact pairs.imp fun _ _ both => both.1
  have sorted : Ascending entries := by
    have ascending : (m.entries.map (·.1)).Pairwise fun k k' => compare k k' = .lt :=
      List.pairwise_map.mpr m.ascending
    rw [keys] at ascending
    exact List.pairwise_map.mp ascending
  rw [show ofList entries = ⟨entries, sorted⟩ from ofList_entries ⟨entries, sorted⟩]
  exact rel_valueIn pairs key

theorem exists_of_rel_some {a : α} {b : Option β} (related : Option.Rel r (some a) b) :
    ∃ b', b = some b' ∧ r a b' := by
  cases related with
  | some here => exact ⟨_, rfl, here⟩

theorem rel_unique (only : ∀ a b b', r a b → r a b' → b = b') {a : Option α} {b b' : Option β}
    (first : Option.Rel r a b) (second : Option.Rel r a b') : b = b' := by
  cases first with
  | none =>
    cases second
    rfl
  | some related =>
    cases second with
    | some related' => rw [only _ _ _ related related']

end Tables

namespace Options

variable {o : Options} {key : String} {value : Json} {items : List Json} {e : Error}

theorem list_withValue (o : Options) (key : String) (value : Json) :
    (o.withValue key value).list key = listOf key value := by
  rw [list, get?, withValue, SortedMap.get?_insert_self]

theorem listOf_str (key text : String) : listOf key (.str text) = .ok (commaItems text) := rfl

theorem listOf_arr_eq_ok {texts : List String} : listOf key (.arr items) = .ok texts ↔ items = texts.map .str := by
  rw [← List.forall₂_eq_eq_eq, List.forall₂_map_right_iff, listOf, mapM_eq_ok]
  constructor
  · refine fun pairs => pairs.imp fun j s read => ?_
    cases j with
    | str t => exact congrArg _ (Except.ok.inj read)
    | _ => cases read
  · refine fun pairs => pairs.imp fun j s same => ?_
    subst same
    rfl

theorem listOf_strs (key : String) (texts : List String) : listOf key (.strs texts) = .ok texts :=
  listOf_arr_eq_ok.mpr rfl

theorem listOf_arr_eq_error : listOf key (.arr items) = .error e ↔
    ∃ (texts : List String) (found : Json) (after : List Json), items = texts.map .str ++ found :: after ∧
      (∀ s, found ≠ .str s) ∧ e = .optionShape key .list found := by
  rw [listOf, mapM_eq_error]
  constructor
  · rintro ⟨before, found, after, split, earlier, failed⟩
    have allTexts : ∀ j ∈ before, ∃ s, j = .str s := by
      intro j member
      obtain ⟨s, read⟩ := earlier j member
      cases j with
      | str s => exact ⟨s, rfl⟩
      | _ => cases read
    obtain ⟨texts, rfl⟩ := Json.exists_texts allTexts
    refine ⟨texts, found, after, split, ?_⟩
    cases found with
    | str s => cases failed
    | _ => exact ⟨nofun, (Except.error.inj failed).symm⟩
  · rintro ⟨texts, found, after, split, odd, rfl⟩
    refine ⟨texts.map .str, found, after, split, List.forall_mem_map.mpr fun s _ => ⟨s, rfl⟩, ?_⟩
    cases found with
    | str s => exact absurd rfl (odd s)
    | _ => rfl

/-- Reading a list fails exactly when some part of the value is out of place, and the error quotes this part. -/
theorem listOf_eq_error : listOf key value = .error e ↔
    ∃ found, value.Misfit found ∧ e = .optionShape key .list found := by
  constructor
  · intro failed
    cases value with
    | str s => cases failed
    | arr items =>
      obtain ⟨texts, found, after, rfl, odd, same⟩ := listOf_arr_eq_error.mp failed
      exact ⟨found, .item texts after odd, same⟩
    | _ => exact ⟨_, .whole nofun nofun, (Except.error.inj failed).symm⟩
  · rintro ⟨found, misfit, rfl⟩
    cases misfit with
    | item texts after odd => exact listOf_arr_eq_error.mpr ⟨texts, found, after, rfl, odd, rfl⟩
    | whole noText noArray =>
      cases value with
      | str s => exact absurd rfl (noText s)
      | arr items => exact absurd rfl (noArray items)
      | _ => rfl

theorem listable_iff (key : String) : value.Listable ↔ ∃ texts, listOf key value = .ok texts := by
  constructor
  · rintro (⟨s⟩ | ⟨texts⟩)
    · exact ⟨commaItems s, listOf_str key s⟩
    · exact ⟨texts, listOf_strs key texts⟩
  · rintro ⟨texts, read⟩
    cases value with
    | str s => exact .text s
    | arr items =>
      rw [listOf_arr_eq_ok.mp read]
      exact .array texts
    | _ => cases read

theorem not_listable_iff : ¬value.Listable ↔ ∃ found, value.Misfit found := by
  constructor
  · intro unreadable
    cases read : listOf "" value with
    | error e =>
      obtain ⟨found, misfit, _⟩ := listOf_eq_error.mp read
      exact ⟨found, misfit⟩
    | ok texts => exact absurd ((listable_iff _).mpr ⟨texts, read⟩) unreadable
  · rintro ⟨found, misfit⟩ listable
    obtain ⟨texts, read⟩ := (listable_iff "").mp listable
    rw [listOf_eq_error.mpr ⟨found, misfit, rfl⟩] at read
    cases read

theorem optionShape_list (key : String) (found : Json) : Error.optionShape key .list found =
    .configuration s!"option '{key}' must be a list of strings, found {found.text}" := by
  have joined : "' must be a list of strings, found " = "' must be " ++ "a list of strings" ++ ", found " := by decide
  simp only [Error.optionShape, OptionShape.phrase, toString, joined, String.append_assoc]

section Table

variable {table : SortedMap String Json} {result : SortedMap String (List String)}

theorem listTable_withValue (o : Options) (key : String) (table : SortedMap String Json) :
    (o.withValue key (.obj table.entries)).listTable key =
      ((table.entries.mapM fun m => (listOf key m.2).map fun items => (m.1, items)) >>= fun entries =>
        pure (SortedMap.ofList entries)) := by
  rw [listTable, get?, withValue, SortedMap.get?_insert_self]

/-- Reading a table fails exactly when some value in it is no list of texts. The error is that of the first such value
in the order of the keys. -/
theorem listTable_eq_error : (o.withValue key (.obj table.entries)).listTable key = .error e ↔
    ∃ before name value after, table.entries = before ++ (name, value) :: after ∧
      (∀ m ∈ before, m.2.Listable) ∧ ∃ found, value.Misfit found ∧ e = .optionShape key .list found := by
  rw [listTable_withValue]
  simp only [bind_eq_error, mapM_eq_error, map_eq_error, map_eq_ok, listOf_eq_error]
  constructor
  · rintro (⟨before, ⟨name, value⟩, after, split, earlier, failed⟩ | ⟨_, _, impossible⟩)
    · refine ⟨before, name, value, after, split, fun m member => ?_, failed⟩
      obtain ⟨_, texts, read, _⟩ := earlier m member
      exact (listable_iff _).mpr ⟨texts, read⟩
    · cases impossible
  · rintro ⟨before, name, value, after, split, earlier, failed⟩
    refine .inl ⟨before, (name, value), after, split, fun m member => ?_, failed⟩
    obtain ⟨texts, read⟩ := (listable_iff key).mp (earlier m member)
    exact ⟨_, texts, read, rfl⟩

/-- What a table is read as has its keys, and under each key the list that the value there is read as. -/
theorem listTable_eq_ok : (o.withValue key (.obj table.entries)).listTable key = .ok result ↔
    ∀ name, Option.Rel (fun value items => listOf key value = .ok items) (table.get? name) (result.get? name) := by
  have sound : ∀ read, (o.withValue key (.obj table.entries)).listTable key = .ok read →
      ∀ name, Option.Rel (fun value items => listOf key value = .ok items) (table.get? name) (read.get? name) := by
    intro read run
    rw [listTable_withValue] at run
    obtain ⟨entries, traversed, same⟩ := bind_eq_ok.mp run
    cases same
    refine SortedMap.rel_ofList ((mapM_eq_ok.mp traversed).imp fun m entry made => ?_)
    obtain ⟨items, read, rfl⟩ := map_eq_ok.mp made
    exact ⟨rfl, read⟩
  refine ⟨sound result, fun related => ?_⟩
  cases run : (o.withValue key (.obj table.entries)).listTable key with
  | error e =>
    obtain ⟨before, name, value, after, split, _, found, misfit, _⟩ := listTable_eq_error.mp run
    have present : table.get? name = some value :=
      table.mem_entries_iff.mp (split ▸ List.mem_append_right before List.mem_cons_self)
    obtain ⟨items, _, read⟩ := exists_of_rel_some (present ▸ related name)
    rw [listOf_eq_error.mpr ⟨found, misfit, rfl⟩] at read
    cases read
  | ok read =>
    have only : ∀ value items items', listOf key value = .ok items → listOf key value = .ok items' → items = items' :=
      fun _ _ _ first second => Except.ok.inj (first.symm.trans second)
    have same : read = result := SortedMap.ext_get? fun name => rel_unique only (sound read run name) (related name)
    rw [same]

theorem exists_listTable_error : (∃ e, (o.withValue key (.obj table.entries)).listTable key = .error e) ↔
    ∃ name value, table.get? name = some value ∧ ¬value.Listable := by
  constructor
  · rintro ⟨e, failed⟩
    obtain ⟨before, name, value, after, split, _, found, misfit, _⟩ := listTable_eq_error.mp failed
    have present : (name, value) ∈ table.entries := split ▸ List.mem_append_right before List.mem_cons_self
    exact ⟨name, value, table.mem_entries_iff.mp present, not_listable_iff.mpr ⟨found, misfit⟩⟩
  · rintro ⟨name, value, present, unreadable⟩
    cases run : (o.withValue key (.obj table.entries)).listTable key with
    | error e => exact ⟨e, rfl⟩
    | ok result =>
      obtain ⟨items, _, read⟩ := exists_of_rel_some (present ▸ listTable_eq_ok.mp run name)
      exact absurd ((listable_iff _).mpr ⟨items, read⟩) unreadable

end Table

/-- A list of texts is read alike from an array and from one text with commas. Blanks and empty items between the
commas do not count, and what has been read is read again from its items between commas. A table is read by reading each
of its values in this way; the first value that is neither a text nor an array of texts is the error. -/
theorem list_spellings_agree (o : Options) (key : String) :
    (∀ items pieces, (∀ w ∈ items, ListWord w) → Spells pieces items →
      (o.withValue key (.strs items)).list key = .ok items ∧
      (o.withValue key (.str (",".intercalate pieces))).list key = .ok items) ∧
    (∀ text, ∃ pieces items, SplitsInto ',' text pieces ∧ (o.withValue key (.str text)).list key = .ok items ∧
      items = (pieces.filter fun p => !isBlankText p).map trim ∧ (∀ w ∈ items, ListWord w) ∧ Spells pieces items ∧
      (o.withValue key (.str (",".intercalate items))).list key = .ok items) ∧
    ∀ table : SortedMap String Json,
      (∀ result, (o.withValue key (.obj table.entries)).listTable key = .ok result ↔
        ∀ name, Option.Rel (fun value items => (o.withValue key value).list key = .ok items) (table.get? name)
          (result.get? name)) ∧
      ((∃ e, (o.withValue key (.obj table.entries)).listTable key = .error e) ↔
        ∃ name value, table.get? name = some value ∧ ¬value.Listable) ∧
      ∀ e, (o.withValue key (.obj table.entries)).listTable key = .error e → ∃ before name value after found,
        table.entries = before ++ (name, value) :: after ∧ (∀ m ∈ before, m.2.Listable) ∧ value.Misfit found ∧
        e = .configuration s!"option '{key}' must be a list of strings, found {found.text}" := by
  simp only [list_withValue]
  refine ⟨?_, ?_, fun table => ⟨?_, ?_, ?_⟩⟩
  · intro items pieces words spells
    rw [listOf_strs, listOf_str, commaItems_joined words spells]
    exact ⟨rfl, rfl⟩
  · intro text
    have split := splitsInto_pieces ',' text
    obtain ⟨words, spells⟩ := commaItems_spelled split
    have again := commaItems_joined words (.self (commaItems text))
    refine ⟨pieces ',' text, commaItems text, split, listOf_str key text, commaItems_eq split, words, spells, ?_⟩
    rw [listOf_str, again]
  · intro result
    exact listTable_eq_ok
  · exact exists_listTable_error
  · intro e failed
    obtain ⟨before, name, value, after, split, earlier, found, misfit, rfl⟩ := listTable_eq_error.mp failed
    exact ⟨before, name, value, after, found, split, earlier, misfit, optionShape_list key found⟩

/-- Blanks of several kinds, items that are left out, a word with a blank inside, and a number in an array that stands
behind a text and in front of a value that is no list either. -/
theorem list_spellings_agree_padded :
    let key := "roles"
    let table : SortedMap String Json :=
      .ofList [("zoe", .bool true), ("ann", .str ", "), ("bob", .arr [.str "a", .int 3, .null])]
    (∀ w ∈ ["ann lee", "bob"], ListWord w) ∧ Spells [" ann lee\t", "", "\u00a0bob"] ["ann lee", "bob"] ∧
    (empty.withValue key (.strs ["ann lee", "bob"])).list key = .ok ["ann lee", "bob"] ∧
    (empty.withValue key (.str " ann lee\t,,\u00a0bob")).list key = .ok ["ann lee", "bob"] ∧
    SplitsInto ',' "clerk,\n ,audit or " ["clerk", "\n ", "audit or "] ∧
    (empty.withValue key (.str "clerk,\n ,audit or ")).list key = .ok ["clerk", "audit or"] ∧
    (empty.withValue key (.str "clerk,audit or")).list key = .ok ["clerk", "audit or"] ∧
    (empty.withValue key (.obj table.entries)).listTable key =
      .error (.configuration "option 'roles' must be a list of strings, found 3") ∧
    ∃ before name value after found, table.entries = before ++ (name, value) :: after ∧
      (∀ m ∈ before, m.2.Listable) ∧ value.Misfit found ∧
      Error.configuration "option 'roles' must be a list of strings, found 3" =
        .configuration s!"option '{key}' must be a list of strings, found {found.text}" := by
  intro key table
  have words : ∀ w ∈ ["ann lee", "bob"], ListWord w := by decide +kernel
  have spells : Spells [" ann lee\t", "", "\u00a0bob"] ["ann lee", "bob"] :=
    .item [' '] ['\t'] (by decide +kernel) (List.all_eq_true.mp rfl) (.blank (by decide +kernel)
      (.item ['\u00a0'] [] (by decide +kernel) (List.all_eq_true.mp rfl) .done))
  have split : SplitsInto ',' "clerk,\n ,audit or " ["clerk", "\n ", "audit or "] := by decide +kernel
  have failed : (empty.withValue key (.obj table.entries)).listTable key =
      .error (.configuration "option 'roles' must be a list of strings, found 3") := by decide +kernel
  obtain ⟨both, reads, tables⟩ := list_spellings_agree empty key
  obtain ⟨array, text⟩ := both _ _ words spells
  have padded : ",".intercalate [" ann lee\t", "", "\u00a0bob"] = " ann lee\t,,\u00a0bob" := by decide +kernel
  obtain ⟨pieces, items, splits, read, rfl, _, _, again⟩ := reads "clerk,\n ,audit or "
  cases splits.eq split
  have trimmed : (["clerk", "\n ", "audit or "].filter fun p => !isBlankText p).map trim = ["clerk", "audit or"] := by
    decide +kernel
  have plain : ",".intercalate ["clerk", "audit or"] = "clerk,audit or" := by decide +kernel
  rw [padded] at text
  rw [trimmed] at read again
  rw [plain] at again
  obtain ⟨_, _, error⟩ := tables table
  exact ⟨words, spells, array, text, split, read, again, failed, error _ failed⟩

end Options

end AccessControl
