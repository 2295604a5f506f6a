import AccessControl.Json
import AccessControl.SortedMap.Lemmas
import Mathlib.Data.List.Forall2

namespace AccessControl

section Traversal

variable {α β : Type}

/-- A traversal succeeds exactly when each item can be read, and it gives what they were read as, in order. -/
theorem mapM_eq_some {f : α → Option β} {items : List α} {results : List β} :
    items.mapM f = some results ↔ List.Forall₂ (fun a b => f a = some b) items results := by
  induction items generalizing results with
  | nil =>
    rw [List.mapM_nil, List.forall₂_nil_left_iff]
    exact ⟨fun same => (Option.some.inj same).symm, fun same => same ▸ rfl⟩
  | cons item rest ih =>
    rw [List.mapM_cons, List.forall₂_cons_left_iff]
    simp only [Option.bind_eq_bind, Option.bind_eq_some_iff, ih]
    constructor
    · rintro ⟨first, head, others, tail, same⟩
      exact ⟨first, others, head, tail, (Option.some.inj same).symm⟩
    · rintro ⟨first, others, head, tail, same⟩
      exact ⟨first, head, others, tail, same ▸ rfl⟩

/-- What holds of all that single items are read as holds of all that a list of them is read as. -/
theorem forall_mem_of_forall₂ {reads : α → β → Prop} {p : β → Prop} {items : List α} {results : List β}
    (pairs : List.Forall₂ reads items results) (each : ∀ a ∈ items, ∀ b, reads a b → p b) : ∀ b ∈ results, p b := by
  induction pairs with
  | nil => exact nofun
  | cons here _ ih =>
    obtain ⟨first, later⟩ := List.forall_mem_cons.mp each
    exact List.forall_mem_cons.mpr ⟨first _ here, ih later⟩

/-- Lists whose items are read alike one by one are read alike. -/
theorem mapM_of_alike {alike : α → α → Prop} {f : α → Option β} (read : ∀ a a', alike a a' → f a = f a')
    {items items' : List α} (pairs : List.Forall₂ alike items items') : items.mapM f = items'.mapM f := by
  induction pairs with
  | nil => rfl
  | cons here _ ih => rw [List.mapM_cons, List.mapM_cons, read _ _ here, ih]

end Traversal

namespace Json

theorem text?_eq_some {j : Json} {s : String} : j.text? = some s ↔ j = .str s := by
  cases j <;> simp [text?]

theorem list?_eq_some {α : Type} {decode : Json → Option α} {j : Json} {results : List α} :
    list? decode j = some results ↔
      ∃ items, j = .arr items ∧ List.Forall₂ (fun item a => decode item = some a) items results := by
  unfold list?
  rw [Option.bind_eq_some_iff]
  simp only [mapM_eq_some]
  refine exists_congr fun items => and_congr_left fun _ => ?_
  cases j <;> simp [items?]

/-- A list is read back from its encoding when each of its items is. -/
theorem list?_map {α : Type} {encode : α → Json} {decode : Json → Option α} {as : List α}
    (each : ∀ a ∈ as, decode (encode a) = some a) : list? decode (.arr (as.map encode)) = some as :=
  list?_eq_some.mpr ⟨_, rfl, List.forall₂_map_left_iff.mpr (List.forall₂_same.mpr each)⟩

theorem orNull_of_reads {α : Type} {decode : Json → Option α} {j : Json} {a : α} (nothing : decode null = none)
    (read : decode j = some a) : orNull decode j = some (some a) := by
  unfold orNull
  split
  · rw [nothing] at read
    cases read
  · rw [read, Option.map_some]

/-- The texts of an object are read back under their names. -/
theorem texts?_ofTexts (m : SortedMap String String) : texts? (ofTexts m) = some m := by
  have entries : (m.entries.map fun e => (e.1, str e.2)).mapM (fun f => f.2.text?.map fun s => (f.1, s)) =
      some m.entries :=
    mapM_eq_some.mpr (List.forall₂_map_left_iff.mpr (List.forall₂_same.mpr fun _ _ => rfl))
  simp [texts?, ofTexts, members?, entries]

end Json

namespace Members

section Fields

variable {α : Type} {fields : Members} {name : String} {default : α} {decode : Json → Option α}

theorem orElse_eq_some {a : α} : fields.orElse name default decode = some a ↔
    fields.lookup name = none ∧ a = default ∨ ∃ j, fields.lookup name = some j ∧ decode j = some a := by
  unfold orElse
  cases fields.lookup name with
  | none => simp [eq_comm]
  | some j => simp

theorem required_of_lookup {j : Json} (found : fields.lookup name = some j) :
    fields.required name decode = decode j := by
  rw [required, found, Option.bind_some]

theorem orElse_of_lookup {j : Json} (found : fields.lookup name = some j) :
    fields.orElse name default decode = decode j := by
  rw [orElse, found]

/-- A field that is left out when its value is the default is read as that value all the same. -/
theorem orElse_of_omitted {omitted : Bool} {j : Json} {a : α}
    (found : fields.lookup name = if omitted then none else some j) (same : omitted = true → a = default)
    (read : decode j = some a) : fields.orElse name default decode = some a := by
  cases omitted with
  | true => exact orElse_eq_some.mpr (.inl ⟨found, same rfl⟩)
  | false => exact orElse_eq_some.mpr (.inr ⟨j, found, read⟩)

/-- A field that is `null` for a missing value is read as that value. -/
theorem optional_of_lookup {encode : α → Json} {o : Option α}
    (found : fields.lookup name = some (.ofOption encode o)) (nothing : decode .null = none)
    (read : ∀ a, decode (encode a) = some a) : fields.optional name decode = some o := by
  rw [optional, orElse_of_lookup found]
  cases o with
  | none => rfl
  | some a => exact Json.orNull_of_reads nothing (read a)

/-- A field that is left out for a missing value is read as that value. -/
theorem optional_of_omitted {encode : α → Json} {o : Option α} (found : fields.lookup name = o.map encode)
    (nothing : decode .null = none) (read : ∀ a, decode (encode a) = some a) :
    fields.optional name decode = some o := by
  cases o with
  | none => exact orElse_eq_some.mpr (.inl ⟨found, rfl⟩)
  | some a => exact orElse_eq_some.mpr (.inr ⟨encode a, found, Json.orNull_of_reads nothing (read a)⟩)

end Fields

end Members

end AccessControl
