import AccessControl.Json.Printer
import AccessControl.Json.Reader
import AccessControl.Proofs.PermissionStorage
import AccessControl.Proofs.RoleStorage

namespace AccessControl

namespace Json

/-- A value that its text gives back: integers have 64 bits, there are no floating-point numbers, the members of objects
stand in ascending order, and arrays and objects are nested no deeper than so many levels. -/
inductive Readable : Nat → Json → Prop
  | null {depth : Nat} : Readable depth null
  | bool {depth : Nat} (b : Bool) : Readable depth (bool b)
  | int {depth : Nat} {n : Int} : -(Nat.pow 2 63 : Nat) ≤ n → n ≤ maxWord → Readable depth (int n)
  | str {depth : Nat} (s : String) : Readable depth (str s)
  | arr {depth : Nat} {items : List Json} : (∀ item ∈ items, Readable depth item) → Readable (depth + 1) (arr items)
  | obj {depth : Nat} {members : Members} : Ascending members → (∀ m ∈ members, Readable depth m.2) →
      Readable (depth + 1) (obj members)

/-- What may stand behind a value: nothing that goes on with a number. -/
def Closes (rest : List Char) : Prop := ∀ c ∈ rest.head?, c.isDigit = false ∧ c ≠ '.' ∧ c ≠ 'e' ∧ c ≠ 'E'

section Strings

theorem charOf?_toNat (c : Char) : charOf? c.toNat = some c := by
  have valid : c.toNat.isValidChar := c.valid
  rw [charOf?, dif_pos valid]
  rfl

theorem toList_twoHexDigits : ∀ n < 32, (twoHexDigits n).toList = [(n / 16).digitChar, (n % 16).digitChar] := by decide

theorem readEscape_control {c : Char} (control : c.toNat < 32) (rest : List Char) :
    readEscape ('u' :: '0' :: '0' :: (c.toNat / 16).digitChar :: (c.toNat % 16).digitChar :: rest) =
      some (c, rest) := by
  have high := hexValue?_digitChar (c.toNat / 16) (by omega)
  have low := hexValue?_digitChar (c.toNat % 16) (by omega)
  have zero : hexValue? '0' = some 0 := by decide
  have number : 16 * (16 * (16 * (16 * 0 + 0) + 0) + c.toNat / 16) + c.toNat % 16 = c.toNat := by omega
  have digits : readHex 4 0 ('0' :: '0' :: (c.toNat / 16).digitChar :: (c.toNat % 16).digitChar :: rest) =
      some (c.toNat, rest) := by
    simp only [readHex, zero, high, low, Option.bind_some, number]
  have single : ¬0xD800 ≤ c.toNat := by omega
  simp [readEscape, readUnicodeEscape, digits, single, charOf?_toNat]

/-- What is written for one character is read as that character. -/
theorem readString_charText (c : Char) (fuel : Nat) (read rest : List Char) :
    readString (fuel + 1) read ((charText c).toList ++ rest) = readString fuel (c :: read) rest := by
  unfold charText
  split_ifs with quote backslash b t n f r control
  · cases eq_of_beq quote
    rfl
  · cases eq_of_beq backslash
    rfl
  · cases eq_of_beq b
    rfl
  · cases eq_of_beq t
    rfl
  · cases eq_of_beq n
    rfl
  · cases eq_of_beq f
    rfl
  · cases eq_of_beq r
    rfl
  · rw [String.toList_append, toList_twoHexDigits c.toNat control]
    simp [readString, readEscape_control control]
  · simp [readString, quote, backslash, control]

/-- The characters between the quotes are read up to the closing quote. -/
theorem readString_escaped (cs : List Char) {fuel : Nat} (enough : cs.length < fuel) (read rest : List Char) :
    readString fuel read (cs.flatMap (fun c => (charText c).toList) ++ '"' :: rest) =
      some (String.ofList (read.reverse ++ cs), rest) := by
  induction cs generalizing fuel read with
  | nil =>
    obtain ⟨fuel, rfl⟩ := Nat.exists_eq_add_of_le' enough
    simp [readString]
  | cons c cs ih =>
    obtain ⟨fuel, rfl⟩ := Nat.exists_eq_add_of_le' (Nat.zero_lt_of_lt enough)
    rw [List.flatMap_cons, List.append_assoc, readString_charText, ih (Nat.lt_of_succ_lt_succ enough)]
    simp

theorem length_le_escaped (cs : List Char) : cs.length ≤ (cs.flatMap fun c => (charText c).toList).length := by
  have written (c : Char) : 1 ≤ (charText c).toList.length := by
    unfold charText
    split_ifs <;> simp
  induction cs with
  | nil => exact Nat.zero_le _
  | cons c cs ih =>
    have here := written c
    rw [List.flatMap_cons, List.length_append, List.length_cons]
    omega

theorem toList_stringText (s : String) :
    (stringText s).toList = '"' :: (s.toList.flatMap (fun c => (charText c).toList) ++ ['"']) := by
  simp [stringText, String.toList_join, List.flatMap_map]

/-- A string is read back after its opening quote, whatever stands behind it. -/
theorem readString_stringText (s : String) (rest : List Char) :
    ∃ inner, (stringText s).toList ++ rest = '"' :: inner ∧
      readString (inner.length + 1) [] inner = some (s, rest) := by
  refine ⟨s.toList.flatMap (fun c => (charText c).toList) ++ '"' :: rest, ?_, ?_⟩
  · rw [toList_stringText]
    simp
  · have enough := length_le_escaped s.toList
    rw [readString_escaped s.toList (by rw [List.length_append, List.length_cons]; omega)]
    simp

end Strings

section Numbers

/-- A number that is not zero is written without a leading zero. -/
theorem head?_toDigits_ne {n : Nat} (positive : 0 < n) : (Nat.toDigits 10 n).head? ≠ some '0' := by
  induction n using Nat.strongRecOn with
  | ind n ih =>
    rw [Nat.toDigits_eq_if (by decide)]
    split_ifs with small
    · simp only [List.head?_cons, Option.some.injEq, ne_eq, Nat.digitChar_eq_zero]
      omega
    · have above := ih (n / 10) (by omega) (by omega)
      rwa [List.head?_append_of_ne_nil _ Nat.toDigits_ne_nil]

theorem takeWhile_isDigit {n : Nat} {rest : List Char} (closes : Closes rest) :
    (Nat.toDigits 10 n ++ rest).takeWhile Char.isDigit = Nat.toDigits 10 n ∧
      (Nat.toDigits 10 n ++ rest).dropWhile Char.isDigit = rest := by
  have digits : ∀ c ∈ Nat.toDigits 10 n, c.isDigit = true :=
    fun c => Nat.isDigit_of_mem_toDigits (by decide) (by decide)
  rw [List.takeWhile_append_of_pos digits, List.dropWhile_append_of_pos digits]
  cases rest with
  | nil => simp
  | cons c rest =>
    have stops := (closes c rfl).1
    simp [stops]

/-- Digits add up to their number as long as it fits into 64 bits. -/
theorem extendWhole_eq (digits : List Char) (s : Nat) (fits : Nat.ofDigitChars 10 digits s ≤ maxWord) :
    extendWhole s digits = (Nat.ofDigitChars 10 digits s, 0) := by
  induction digits generalizing s with
  | nil => rfl
  | cons c rest ih =>
    rw [Nat.ofDigitChars_cons] at fits ⊢
    have grows : 10 * s + digitValue c ≤ Nat.ofDigitChars 10 rest (10 * s + digitValue c) := by
      rw [Nat.ofDigitChars_eq_ofDigitChars_zero]
      exact (Nat.le_mul_of_pos_left _ (Nat.pow_pos (by decide))).trans (Nat.le_add_right _ _)
    rw [extendWhole, if_pos (grows.trans fits)]
    exact ih _ fits

theorem readNumberTail_of_closes (negative : Bool) (whole : List Char) {rest : List Char} (closes : Closes rest) :
    readNumberTail negative whole rest = (wholeNumber negative whole).map (·, rest) := by
  unfold readNumberTail
  split
  · exact absurd rfl (closes _ rfl).2.1
  · exact absurd rfl (closes _ rfl).2.2.1
  · exact absurd rfl (closes _ rfl).2.2.2
  · rfl

theorem startsWithZero_toDigits (n : Nat) : startsWithZero (Nat.toDigits 10 n) = false := by
  rcases Nat.eq_zero_or_pos n with rfl | positive
  · rfl
  · have head := head?_toDigits_ne positive
    unfold startsWithZero
    split
    · rename_i written
      rw [written] at head
      exact absurd rfl head
    · rfl

theorem exists_first_toDigits (n : Nat) :
    ∃ first others, Nat.toDigits 10 n = first :: others ∧ first.isDigit = true := by
  obtain ⟨first, others, written⟩ := List.exists_cons_of_ne_nil (Nat.toDigits_ne_nil (n := n) (b := 10))
  have member : first ∈ Nat.toDigits 10 n := written ▸ List.mem_cons_self
  exact ⟨first, others, written, Nat.isDigit_of_mem_toDigits (by decide) (by decide) member⟩

theorem splitMinus_toDigits (n : Nat) (rest : List Char) :
    splitMinus (Nat.toDigits 10 n ++ rest) = (false, Nat.toDigits 10 n ++ rest) := by
  obtain ⟨first, others, written, digit⟩ := exists_first_toDigits n
  have unsigned : first ≠ '-' := by
    rintro rfl
    exact absurd digit (by decide)
  rw [written, List.cons_append]
  unfold splitMinus
  split
  · rename_i signed
    exact absurd (List.cons.inj signed).1 unsigned
  · rfl

/-- A number is read from its digits, behind a minus if it has one. -/
theorem readNumber_digits {cs rest : List Char} {negative : Bool} {n : Nat} (closes : Closes rest)
    (sign : splitMinus cs = (negative, Nat.toDigits 10 n ++ rest)) :
    readNumber cs = (wholeNumber negative (Nat.toDigits 10 n)).map (·, rest) := by
  obtain ⟨taken, left⟩ := takeWhile_isDigit (n := n) closes
  have filled : (Nat.toDigits 10 n).isEmpty = false := by
    rw [List.isEmpty_eq_false_iff]
    exact Nat.toDigits_ne_nil
  rw [readNumber, sign]
  simp only [taken, left, filled, startsWithZero_toDigits, Bool.or_self, Bool.false_eq_true, if_false]
  exact readNumberTail_of_closes negative _ closes

theorem wholeNumber_toDigits {n : Nat} (fits : n ≤ maxWord) :
    wholeNumber false (Nat.toDigits 10 n) = some (int n) ∧
      (0 < n → n ≤ Nat.pow 2 63 → wholeNumber true (Nat.toDigits 10 n) = some (int (-n))) := by
  have value : Nat.ofDigitChars 10 (Nat.toDigits 10 n) 0 = n := Nat.ofDigitChars_ten_toDigits
  have whole := extendWhole_eq (Nat.toDigits 10 n) 0 (by rwa [value])
  rw [value] at whole
  constructor
  · rw [wholeNumber, whole]
    rfl
  · intro positive small
    have large : ¬(n = 0 ∨ Nat.pow 2 63 < n) := by
      rintro (zero | above)
      · exact absurd zero (Nat.ne_of_gt positive)
      · exact absurd small (Nat.not_le.mpr above)
    rw [wholeNumber, whole]
    simp [large]

/-- An integer of 64 bits is read back from its digits. -/
theorem readNumber_toString {n : Int} (low : -(Nat.pow 2 63 : Nat) ≤ n) (high : n ≤ maxWord) {rest : List Char}
    (closes : Closes rest) : readNumber ((toString n).toList ++ rest) = some (int n, rest) := by
  have half : Nat.pow 2 63 ≤ maxWord := by decide
  rw [Int.toString_eq_repr, Int.repr_eq_if]
  split_ifs with positive
  · rw [Nat.repr_eq_ofList_toDigits, String.toList_ofList, readNumber_digits closes (splitMinus_toDigits _ _),
      (wholeNumber_toDigits (by omega)).1, Int.toNat_of_nonneg positive]
    rfl
  · have written : ("-" ++ (-n).toNat.repr).toList = '-' :: Nat.toDigits 10 (-n).toNat := by
      rw [Nat.repr_eq_ofList_toDigits]
      simp
    rw [written, List.cons_append, readNumber_digits closes rfl,
      (wholeNumber_toDigits (by omega)).2 (by omega) (by omega), Int.toNat_of_nonneg (by omega), Int.neg_neg]
    rfl

end Numbers

section Values

/-- With enough steps a value is read back from its text, whatever closes it. -/
def ReadsBack (depth : Nat) (j : Json) : Prop :=
  ∀ (fuel : Nat) (rest : List Char), (text j).toList.length ≤ fuel → Closes rest →
    readValue fuel depth ((text j).toList ++ rest) = some (j, rest)

/-- The characters of values with commas between them. -/
def itemChars (items : List Json) : List Char := [','].intercalate (items.map fun j => (text j).toList)

/-- The characters of named values with commas between them. -/
def memberChars (members : Members) : List Char :=
  [','].intercalate (members.map fun m => (stringText m.1).toList ++ ':' :: (text m.2).toList)

theorem itemTexts_eq_map (items : List Json) : itemTexts items = items.map text := by
  induction items with
  | nil => rfl
  | cons item rest ih => rw [itemTexts, ih, List.map_cons]

theorem memberTexts_eq_map (members : Members) :
    memberTexts members = members.map fun m => stringText m.1 ++ ":" ++ text m.2 := by
  induction members with
  | nil => rfl
  | cons m rest ih => rw [memberTexts, ih, List.map_cons]

theorem toList_text_arr (items : List Json) : (text (arr items)).toList = '[' :: (itemChars items ++ [']']) := by
  simp [text, itemTexts_eq_map, itemChars, String.toList_intercalate, Function.comp_def]

theorem toList_text_obj (members : Members) :
    (text (obj members)).toList = '\x7b' :: (memberChars members ++ ['\x7d']) := by
  simp [text, memberTexts_eq_map, memberChars, String.toList_intercalate, Function.comp_def]

theorem itemChars_singleton (item : Json) : itemChars [item] = (text item).toList := by
  simp [itemChars]

theorem itemChars_cons_cons (item next : Json) (more : List Json) :
    itemChars (item :: next :: more) = (text item).toList ++ ',' :: itemChars (next :: more) := by
  simp [itemChars, List.intercalate_cons_cons]

theorem memberChars_singleton (m : String × Json) :
    memberChars [m] = (stringText m.1).toList ++ ':' :: (text m.2).toList := by
  simp [memberChars]

theorem memberChars_cons_cons (m next : String × Json) (more : Members) :
    memberChars (m :: next :: more) =
      (stringText m.1).toList ++ ':' :: ((text m.2).toList ++ ',' :: memberChars (next :: more)) := by
  simp [memberChars, List.intercalate_cons_cons]

theorem skipSpaces_cons {c : Char} (visible : isSpace c = false) (cs : List Char) : skipSpaces (c :: cs) = c :: cs :=
  List.dropWhile_cons_of_neg (by simp [visible])

theorem closes_cons {c : Char} (stops : c.isDigit = false) (point : c ≠ '.') (small : c ≠ 'e') (large : c ≠ 'E')
    (cs : List Char) : Closes (c :: cs) := by
  rintro _ ⟨⟩
  exact ⟨stops, point, small, large⟩

theorem closes_comma (cs : List Char) : Closes (',' :: cs) :=
  closes_cons rfl (by decide) (by decide) (by decide) cs

theorem closes_bracket (cs : List Char) : Closes (']' :: cs) :=
  closes_cons rfl (by decide) (by decide) (by decide) cs

theorem closes_brace (cs : List Char) : Closes ('\x7d' :: cs) :=
  closes_cons rfl (by decide) (by decide) (by decide) cs

/-- An integer begins with its minus or with a digit. -/
theorem exists_first_toString (n : Int) :
    ∃ c cs, (toString n).toList = c :: cs ∧ (c = '-' ∨ c.isDigit = true) := by
  rw [Int.toString_eq_repr, Int.repr_eq_if]
  split_ifs with positive
  · obtain ⟨first, others, written, digit⟩ := exists_first_toDigits n.toNat
    exact ⟨first, others, by rw [Nat.repr_eq_ofList_toDigits, String.toList_ofList, written], .inr digit⟩
  · exact ⟨'-', (-n).toNat.repr.toList, by simp, .inl rfl⟩

theorem ne_of_number {c d : Char} (begins : c = '-' ∨ c.isDigit = true) (sign : d ≠ '-')
    (other : d.isDigit = false) : c ≠ d := by
  rintro rfl
  rcases begins with minus | digit
  · exact sign minus
  · exact absurd digit (by simp [other])

theorem isSpace_of_number {c : Char} (begins : c = '-' ∨ c.isDigit = true) : isSpace c = false := by
  have blank := ne_of_number begins (d := ' ') (by decide) rfl
  have line := ne_of_number begins (d := '\n') (by decide) rfl
  have tab := ne_of_number begins (d := '\t') (by decide) rfl
  have back := ne_of_number begins (d := '\r') (by decide) rfl
  simp [isSpace, blank, line, tab, back]

/-- What begins with a minus or a digit is read as a number. -/
theorem readValue_number {c : Char} (begins : c = '-' ∨ c.isDigit = true) (fuel depth : Nat) (cs : List Char) :
    readValue (fuel + 1) depth (c :: cs) = readNumber (c :: cs) := by
  have apart {d : Char} {ds : List Char} (sign : d ≠ '-') (other : d.isDigit = false) : c :: cs ≠ d :: ds :=
    fun same => ne_of_number begins sign other (List.cons.inj same).1
  rw [readValue, skipSpaces_cons (isSpace_of_number begins)]
  split
  next brace => exact absurd brace (apart (by decide) rfl)
  next bracket => exact absurd bracket (apart (by decide) rfl)
  next quote => exact absurd quote (apart (by decide) rfl)
  next yes => exact absurd yes (apart (by decide) rfl)
  next no => exact absurd no (apart (by decide) rfl)
  next missing => exact absurd missing (apart (by decide) rfl)
  next => rfl

/-- No value begins with a blank, and none with the bracket that ends an array. -/
theorem Readable.exists_first {depth : Nat} {j : Json} (readable : Readable depth j) :
    ∃ c cs, (text j).toList = c :: cs ∧ isSpace c = false ∧ c ≠ ']' := by
  cases readable with
  | null => exact ⟨'n', _, rfl, rfl, by decide⟩
  | bool b =>
    cases b with
    | false => exact ⟨'f', _, rfl, rfl, by decide⟩
    | true => exact ⟨'t', _, rfl, rfl, by decide⟩
  | @int _ n low high =>
    obtain ⟨c, cs, written, begins⟩ := exists_first_toString n
    exact ⟨c, cs, by rw [text, written], isSpace_of_number begins, ne_of_number begins (by decide) rfl⟩
  | str s => exact ⟨'"', _, toList_stringText s, rfl, by decide⟩
  | arr each => exact ⟨'[', _, toList_text_arr _, rfl, by decide⟩
  | obj ascending each => exact ⟨'\x7b', _, toList_text_obj _, rfl, by decide⟩

/-- Items are read back up to the bracket that ends them. -/
theorem readItems_itemChars {depth : Nat} {items : List Json} (nonempty : items ≠ [])
    (each : ∀ item ∈ items, ReadsBack depth item) {fuel : Nat} (enough : (itemChars items).length < fuel)
    (read : List Json) (rest : List Char) :
    readItems fuel depth read (itemChars items ++ ']' :: rest) = some (arr (read.reverse ++ items), rest) := by
  induction items generalizing fuel read with
  | nil => exact absurd rfl nonempty
  | cons item others ih =>
    obtain ⟨fuel, rfl⟩ := Nat.exists_eq_add_of_le' (Nat.zero_lt_of_lt enough)
    obtain ⟨here, later⟩ := List.forall_mem_cons.mp each
    cases others with
    | nil =>
      rw [itemChars_singleton] at enough ⊢
      rw [readItems, here fuel _ (Nat.le_of_lt_succ enough) (closes_bracket rest)]
      simp [skipSpaces_cons (c := ']') rfl]
    | cons next more =>
      rw [itemChars_cons_cons, List.length_append, List.length_cons] at enough
      rw [itemChars_cons_cons, List.append_assoc, List.cons_append, readItems, here fuel _ (by omega) (closes_comma _)]
      simp only [Option.bind_some, skipSpaces_cons (c := ',') rfl]
      rw [ih (List.cons_ne_nil _ _) later (by omega), List.reverse_cons, List.append_assoc, List.singleton_append]

/-- Members are read back up to the brace that ends them, as long as they continue those read before. -/
theorem readMembers_memberChars {depth : Nat} {members : Members} (nonempty : members ≠ [])
    (each : ∀ m ∈ members, ReadsBack depth m.2) {fuel : Nat} (enough : (memberChars members).length < fuel)
    {read : Members} (ascending : Ascending (read ++ members)) (rest : List Char) :
    readMembers fuel depth read (memberChars members ++ '\x7d' :: rest) = some (obj (read ++ members), rest) := by
  induction members generalizing fuel read with
  | nil => exact absurd rfl nonempty
  | cons m others ih =>
    obtain ⟨fuel, rfl⟩ := Nat.exists_eq_add_of_le' (Nat.zero_lt_of_lt enough)
    obtain ⟨here, later⟩ := List.forall_mem_cons.mp each
    have last : insertSorted m.1 m.2 read = read ++ [m] :=
      insertSorted_append fun e member => (List.pairwise_append.mp ascending).2.2 e member _ List.mem_cons_self
    cases others with
    | nil =>
      rw [memberChars_singleton, List.length_append, List.length_cons] at enough
      obtain ⟨inner, quoted, named⟩ := readString_stringText m.1 (':' :: ((text m.2).toList ++ '\x7d' :: rest))
      rw [memberChars_singleton, List.append_assoc, List.cons_append, quoted, readMembers]
      simp only [skipSpaces_cons (c := '"') rfl, named, Option.bind_some, skipSpaces_cons (c := ':') rfl]
      rw [here fuel _ (by omega) (closes_brace rest)]
      simp [skipSpaces_cons (c := '\x7d') rfl, last]
    | cons next more =>
      rw [memberChars_cons_cons, List.length_append, List.length_cons, List.length_append, List.length_cons] at enough
      obtain ⟨inner, quoted, named⟩ := readString_stringText m.1
        (':' :: ((text m.2).toList ++ ',' :: (memberChars (next :: more) ++ '\x7d' :: rest)))
      rw [memberChars_cons_cons, List.append_assoc, List.cons_append, List.append_assoc, List.cons_append, quoted,
        readMembers]
      simp only [skipSpaces_cons (c := '"') rfl, named, Option.bind_some, skipSpaces_cons (c := ':') rfl]
      rw [here fuel _ (by omega) (closes_comma _)]
      simp only [Option.bind_some, skipSpaces_cons (c := ',') rfl, last]
      have grown : read ++ m :: next :: more = (read ++ [m]) ++ next :: more :=
        List.append_cons _ _ _
      rw [grown] at ascending ⊢
      refine ih (List.cons_ne_nil _ _) later ?_ ascending
      omega

theorem exists_first_itemChars {depth : Nat} {item : Json} (readable : Readable depth item) (others : List Json) :
    ∃ c cs, itemChars (item :: others) = c :: cs ∧ isSpace c = false ∧ c ≠ ']' := by
  obtain ⟨c, cs, written, visible, opens⟩ := readable.exists_first
  cases others with
  | nil => exact ⟨c, cs, by rw [itemChars_singleton, written], visible, opens⟩
  | cons next more => exact ⟨c, _, by rw [itemChars_cons_cons, written, List.cons_append], visible, opens⟩

theorem exists_quote_memberChars (m : String × Json) (others : Members) :
    ∃ cs, memberChars (m :: others) = '"' :: cs := by
  cases others with
  | nil => exact ⟨_, by rw [memberChars_singleton, toList_stringText, List.cons_append]⟩
  | cons next more => exact ⟨_, by rw [memberChars_cons_cons, toList_stringText, List.cons_append]⟩

theorem readsBack_arr {depth : Nat} {items : List Json} (readable : ∀ item ∈ items, Readable depth item)
    (each : ∀ item ∈ items, ReadsBack depth item) : ReadsBack (depth + 1) (arr items) := by
  intro fuel rest enough _
  rw [toList_text_arr, List.length_cons, List.length_append, List.length_singleton] at enough
  obtain ⟨fuel, rfl⟩ := Nat.exists_eq_add_of_le' (Nat.zero_lt_of_lt enough)
  rw [toList_text_arr, List.cons_append, List.append_assoc, List.singleton_append, readValue, skipSpaces_cons rfl]
  simp only [Nat.add_one_ne_zero, if_false, Nat.add_sub_cancel]
  cases items with
  | nil => simp [itemChars, skipSpaces_cons (c := ']') rfl]
  | cons item others =>
    obtain ⟨c, cs, written, visible, opens⟩ := exists_first_itemChars (readable item List.mem_cons_self) others
    have fits : (itemChars (item :: others)).length < fuel := by omega
    have back := readItems_itemChars (List.cons_ne_nil item others) each fits [] rest
    rw [written, List.cons_append] at back ⊢
    rw [skipSpaces_cons visible]
    split
    · rename_i bracket
      exact absurd (List.cons.inj bracket).1 opens
    · exact back

theorem readsBack_obj {depth : Nat} {members : Members} (ascending : Ascending members)
    (each : ∀ m ∈ members, ReadsBack depth m.2) : ReadsBack (depth + 1) (obj members) := by
  intro fuel rest enough _
  rw [toList_text_obj, List.length_cons, List.length_append, List.length_singleton] at enough
  obtain ⟨fuel, rfl⟩ := Nat.exists_eq_add_of_le' (Nat.zero_lt_of_lt enough)
  rw [toList_text_obj, List.cons_append, List.append_assoc, List.singleton_append, readValue, skipSpaces_cons rfl]
  simp only [Nat.add_one_ne_zero, if_false, Nat.add_sub_cancel]
  cases members with
  | nil => simp [memberChars, skipSpaces_cons (c := '\x7d') rfl]
  | cons m others =>
    obtain ⟨cs, written⟩ := exists_quote_memberChars m others
    have fits : (memberChars (m :: others)).length < fuel := by omega
    have back : readMembers fuel depth [] (memberChars (m :: others) ++ '\x7d' :: rest) =
        some (obj (m :: others), rest) :=
      readMembers_memberChars (List.cons_ne_nil m others) each fits ascending rest
    rw [written, List.cons_append] at back ⊢
    rw [skipSpaces_cons rfl]
    exact back

/-- A readable value is read back from its text, whatever closes it. -/
theorem Readable.readsBack {depth : Nat} {j : Json} (readable : Readable depth j) : ReadsBack depth j := by
  induction readable with
  | null =>
    intro fuel rest enough _
    obtain ⟨fuel, rfl⟩ := Nat.exists_eq_add_of_le' (Nat.zero_lt_of_lt enough)
    rfl
  | bool b =>
    intro fuel rest enough _
    cases b with
    | false =>
      obtain ⟨fuel, rfl⟩ := Nat.exists_eq_add_of_le' (Nat.zero_lt_of_lt enough)
      rfl
    | true =>
      obtain ⟨fuel, rfl⟩ := Nat.exists_eq_add_of_le' (Nat.zero_lt_of_lt enough)
      rfl
  | @int depth n low high =>
    intro fuel rest enough closes
    obtain ⟨c, cs, written, begins⟩ := exists_first_toString n
    rw [text, written] at enough
    obtain ⟨fuel, rfl⟩ := Nat.exists_eq_add_of_le' (Nat.zero_lt_of_lt enough)
    rw [text, written, List.cons_append, readValue_number begins, ← List.cons_append, ← written]
    exact readNumber_toString low high closes
  | str s =>
    intro fuel rest enough _
    obtain ⟨inner, quoted, read⟩ := readString_stringText s rest
    rw [text, toList_stringText] at enough
    obtain ⟨fuel, rfl⟩ := Nat.exists_eq_add_of_le' (Nat.zero_lt_of_lt enough)
    rw [text, quoted, readValue, skipSpaces_cons rfl]
    simp [read]
  | arr each ih => exact readsBack_arr each ih
  | obj ascending each ih => exact readsBack_obj ascending ih

/-- A readable value is read from its whole text. -/
theorem ofText?_text {j : Json} (readable : Readable nestingLimit j) : ofText? j.text = some j := by
  have whole := readable.readsBack (2 * j.text.toList.length + 2) [] (by omega) nofun
  rw [List.append_nil] at whole
  simp [ofText?, whole, skipSpaces]

end Values

end Json

/-- A role whose groups are nested no deeper than so many levels. -/
inductive Role.NestedWithin : Nat → Role → Prop
  | simple {levels : Nat} (leaf : SimpleRole) : NestedWithin levels (simple leaf)
  | group {levels : Nat} (name : String) {members : List Role} : (∀ m ∈ members, NestedWithin levels m) →
      NestedWithin (levels + 1) (group name members)

namespace Json

theorem Readable.mono {depth deeper : Nat} {j : Json} (readable : Readable depth j) (more : depth ≤ deeper) :
    Readable deeper j := by
  induction readable generalizing deeper with
  | null => exact .null
  | bool b => exact .bool b
  | int low high => exact .int low high
  | str s => exact .str s
  | arr _ ih =>
    obtain ⟨deeper, rfl⟩ := Nat.exists_eq_add_of_le' (Nat.zero_lt_of_lt more)
    exact .arr fun item member => ih item member (Nat.le_of_succ_le_succ more)
  | obj ascending _ ih =>
    obtain ⟨deeper, rfl⟩ := Nat.exists_eq_add_of_le' (Nat.zero_lt_of_lt more)
    exact .obj ascending fun m member => ih m member (Nat.le_of_succ_le_succ more)

end Json

namespace Role

theorem readable_leaf (leaf : SimpleRole) (depth : Nat) : Json.Readable (depth + 1) leaf.toJson := by
  obtain ⟨name, parent⟩ := leaf
  cases parent with
  | none => exact .obj (List.pairwise_singleton _ _) (List.forall_mem_singleton.mpr (.str name))
  | some parent =>
    have ascending : compare "name" "parent" = .lt := by decide
    refine .obj (List.pairwise_pair.mpr ascending) (List.forall_mem_cons.mpr ⟨.str name, ?_⟩)
    exact List.forall_mem_singleton.mpr (.str parent)

/-- A level of groups takes three levels in JSON, a simple role two. -/
theorem NestedWithin.readable {levels : Nat} {r : Role} (nested : NestedWithin levels r) :
    Json.Readable (3 * levels + 2) r.toJson := by
  induction nested with
  | @simple levels leaf =>
    exact .obj (List.pairwise_singleton _ _) (List.forall_mem_singleton.mpr (readable_leaf leaf (3 * levels)))
  | @group levels name members _ ih =>
    have items : Json.Readable (3 * levels + 3) (.arr (members.map toJson)) :=
      .arr (List.forall_mem_map.mpr ih)
    have ascending : compare "name" "roles" = .lt := by decide
    have body : Json.Readable (3 * levels + 4) (.obj [("name", .str name), ("roles", .arr (members.map toJson))]) :=
      .obj (List.pairwise_pair.mpr ascending)
        (List.forall_mem_cons.mpr ⟨.str name, List.forall_mem_singleton.mpr items⟩)
    rw [toJson, toJsons_eq_map]
    exact .obj (List.pairwise_singleton _ _) (List.forall_mem_singleton.mpr body)

/-- What is made by the operations on roles comes back from the text of its encoding, unless its groups are nested
deeper than 41 levels. -/
theorem ofText?_text_toJson {r : Role} (built : Built r) (nested : NestedWithin 41 r) :
    (Json.ofText? r.toJson.text).bind ofJson? = some r := by
  rw [Json.ofText?_text (nested.readable.mono (by decide)), Option.bind_some, ofJson?_toJson built.irredundant]

end Role

end AccessControl
