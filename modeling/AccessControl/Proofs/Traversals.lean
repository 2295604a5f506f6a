import Mathlib.Data.List.Forall2

namespace AccessControl
universe u v w

section Traversals

variable {ε : Type u} {α : Type v} {β : Type w}

theorem bind_eq_ok {γ : Type w} {x : Except ε β} {f : β → Except ε γ} {c : γ} :
    (x >>= f) = .ok c ↔ ∃ b, x = .ok b ∧ f b = .ok c := by
  cases x with
  | error e => exact ⟨nofun, nofun⟩
  | ok b => exact ⟨fun run => ⟨b, rfl, run⟩, fun ⟨_, same, run⟩ => by cases same; exact run⟩

theorem bind_eq_error {γ : Type w} {x : Except ε β} {f : β → Except ε γ} {e : ε} :
    (x >>= f) = .error e ↔ x = .error e ∨ ∃ b, x = .ok b ∧ f b = .error e := by
  cases x with
  | error e' =>
    constructor
    · intro run
      cases run
      exact .inl rfl
    · rintro (same | ⟨_, impossible, _⟩)
      · cases same
        rfl
      · cases impossible
  | ok b =>
    constructor
    · exact fun run => .inr ⟨b, rfl, run⟩
    · rintro (impossible | ⟨_, same, run⟩)
      · cases impossible
      · cases same
        exact run

theorem map_eq_ok {γ : Type w} {x : Except ε β} {f : β → γ} {c : γ} : x.map f = .ok c ↔ ∃ b, x = .ok b ∧ f b = c := by
  cases x with
  | error e => exact ⟨nofun, nofun⟩
  | ok b =>
    constructor
    · exact fun same => ⟨b, rfl, Except.ok.inj same⟩
    · rintro ⟨_, same, given⟩
      cases same
      exact congrArg _ given

theorem map_eq_error {γ : Type w} {x : Except ε β} {f : β → γ} {e : ε} : x.map f = .error e ↔ x = .error e := by
  cases x with
  | error e' => exact ⟨fun same => congrArg _ (Except.error.inj same), fun same => congrArg _ (Except.error.inj same)⟩
  | ok b => exact ⟨nofun, nofun⟩

/-- A traversal succeeds exactly when each of its steps does, and it gives their results in order. -/
theorem mapM_eq_ok {f : α → Except ε β} {items : List α} {results : List β} :
    items.mapM f = .ok results ↔ List.Forall₂ (fun a b => f a = .ok b) items results := by
  induction items generalizing results with
  | nil =>
    rw [List.mapM_nil, List.forall₂_nil_left_iff]
    exact ⟨fun same => (Except.ok.inj same).symm, fun same => same ▸ rfl⟩
  | cons item rest ih =>
    rw [List.mapM_cons, List.forall₂_cons_left_iff]
    simp only [bind_eq_ok, ih]
    constructor
    · rintro ⟨first, head, others, tail, same⟩
      exact ⟨first, others, head, tail, (Except.ok.inj same).symm⟩
    · rintro ⟨first, others, head, tail, same⟩
      exact ⟨first, head, others, tail, same ▸ rfl⟩

/-- A traversal fails exactly when some step does, and its error is that of the first such step. -/
theorem mapM_eq_error {f : α → Except ε β} {items : List α} {e : ε} :
    items.mapM f = .error e ↔ ∃ before item after, items = before ++ item :: after ∧
      (∀ b ∈ before, ∃ result, f b = .ok result) ∧ f item = .error e := by
  induction items with
  | nil =>
    constructor
    · exact fun run => nomatch run
    · rintro ⟨before, item, after, split, _⟩
      exact absurd split.symm (List.append_ne_nil_of_right_ne_nil _ (List.cons_ne_nil _ _))
  | cons first rest ih =>
    rw [List.mapM_cons]
    simp only [bind_eq_error, ih]
    constructor
    · rintro (failed | ⟨head, run, ⟨before, item, after, split, earlier, failed⟩ | ⟨_, _, impossible⟩⟩)
      · exact ⟨[], first, rest, rfl, nofun, failed⟩
      · refine ⟨first :: before, item, after, by rw [split, List.cons_append], ?_, failed⟩
        exact List.forall_mem_cons.mpr ⟨⟨head, run⟩, earlier⟩
      · cases impossible
    · rintro ⟨before, item, after, split, earlier, failed⟩
      cases before with
      | nil =>
        cases split
        exact .inl failed
      | cons head before =>
        cases split
        obtain ⟨⟨result, run⟩, earlier⟩ := List.forall_mem_cons.mp earlier
        exact .inr ⟨result, run, .inl ⟨before, item, after, rfl, earlier, failed⟩⟩

theorem exists_forall₂_of_forall_exists {p : α → β → Prop} {items : List α}
    (each : ∀ a ∈ items, ∃ b, p a b) : ∃ others, List.Forall₂ p items others := by
  induction items with
  | nil => exact ⟨[], .nil⟩
  | cons item rest ih =>
    obtain ⟨⟨b, here⟩, later⟩ := List.forall_mem_cons.mp each
    obtain ⟨others, tail⟩ := ih later
    exact ⟨b :: others, .cons here tail⟩

/-- Where each item of one list is the image of something that belongs to the item beside it, the list is the image of
all these together. -/
theorem exists_map_of_forall₂ {γ : Type v} {p : α → γ → Prop} {f : γ → β} {items : List α} {images : List β}
    (each : List.Forall₂ (fun a b => ∃ c, p a c ∧ b = f c) items images) :
    ∃ sources, List.Forall₂ p items sources ∧ images = sources.map f := by
  induction each with
  | nil => exact ⟨[], .nil, rfl⟩
  | cons here _ ih =>
    obtain ⟨c, belongs, rfl⟩ := here
    obtain ⟨sources, later, rfl⟩ := ih
    exact ⟨c :: sources, .cons belongs later, rfl⟩

/-- What holds of the results of all steps of a traversal holds of all that it gives. -/
theorem forall_mem_of_mapM {f : α → Except ε β} {p : β → Prop} {items : List α} {results : List β}
    (each : ∀ a ∈ items, ∀ b, f a = .ok b → p b) (traversed : items.mapM f = .ok results) : ∀ b ∈ results, p b := by
  have pairs := mapM_eq_ok.mp traversed
  clear traversed
  induction pairs with
  | nil => exact nofun
  | cons here _ ih =>
    obtain ⟨first, later⟩ := List.forall_mem_cons.mp each
    exact List.forall_mem_cons.mpr ⟨first _ here, ih later⟩

/-- A fold whose steps can fail either takes in all items or stops at the first that cannot be taken in, whose error is
its own. What every step keeps speaks of the items taken in so far. -/
theorem foldlM_cases {f : β → α → Except ε β} (keeps : List α → β → Prop) (fails : List α → α → ε → Prop)
    (step : ∀ seen b a, keeps seen b →
      (∃ next, f b a = .ok next ∧ keeps (seen ++ [a]) next) ∨ ∃ e, f b a = .error e ∧ fails seen a e)
    {seen : List α} {b : β} (start : keeps seen b) (items : List α) :
    (∃ last, items.foldlM f b = .ok last ∧ keeps (seen ++ items) last) ∨
      ∃ before item after e, items = before ++ item :: after ∧ (∃ next, keeps (seen ++ before) next) ∧
        fails (seen ++ before) item e ∧ items.foldlM f b = .error e := by
  induction items generalizing seen b with
  | nil => exact .inl ⟨b, rfl, by rwa [List.append_nil]⟩
  | cons a rest ih =>
    rw [List.foldlM_cons]
    rcases step seen b a start with ⟨next, run, kept⟩ | ⟨e, run, failed⟩
    · rw [run]
      rcases ih kept with ⟨last, later, keptLast⟩ | ⟨before, item, after, e, split, keptBefore, failed, later⟩
      · rw [List.append_assoc] at keptLast
        exact .inl ⟨last, later, keptLast⟩
      · rw [List.append_assoc] at keptBefore failed
        exact .inr ⟨a :: before, item, after, e, by rw [split, List.cons_append], keptBefore, failed, later⟩
    · rw [run]
      refine .inr ⟨[], a, rest, e, rfl, ⟨b, ?_⟩, ?_, rfl⟩
      · rwa [List.append_nil]
      · rwa [List.append_nil]

/-- What each step of a fold keeps, the whole fold keeps. -/
theorem foldlM_keeps {f : β → α → Except ε β} (keeps : β → Prop)
    (step : ∀ b a next, keeps b → f b a = .ok next → keeps next) {items : List α} {b last : β} (start : keeps b)
    (run : items.foldlM f b = .ok last) : keeps last := by
  induction items generalizing b with
  | nil =>
    cases run
    exact start
  | cons a rest ih =>
    rw [List.foldlM_cons] at run
    obtain ⟨next, here, later⟩ := bind_eq_ok.mp run
    exact ih (step b a next start here) later

end Traversals

section Histories

variable {α : Type} {p q : α → Prop} {items : List α}

/-- Some item of a history has the first property, and all later items have the second. -/
def Since (p q : α → Prop) (items : List α) : Prop :=
  ∃ before item after, items = before ++ item :: after ∧ p item ∧ ∀ later ∈ after, q later

theorem not_since_nil : ¬Since p q [] := by
  rintro ⟨before, item, after, split, _⟩
  exact List.append_ne_nil_of_right_ne_nil before (List.cons_ne_nil item after) split.symm

/-- A history that grows by one item is looked at from its end. -/
theorem since_append_singleton {last : α} : Since p q (items ++ [last]) ↔ p last ∨ q last ∧ Since p q items := by
  constructor
  · rintro ⟨before, item, after, split, holds, since⟩
    rcases List.eq_nil_or_concat after with rfl | ⟨rest, final, rfl⟩
    · obtain ⟨_, same⟩ := List.append_inj' split rfl
      cases same
      exact .inl holds
    · rw [List.concat_eq_append, ← List.cons_append, ← List.append_assoc] at split
      obtain ⟨earlier, same⟩ := List.append_inj' split rfl
      cases same
      rw [List.concat_eq_append] at since
      refine .inr ⟨since last (List.mem_append_right rest (List.mem_singleton_self last)), before, item, rest, earlier,
        holds, fun later member => since later (List.mem_append_left _ member)⟩
  · rintro (holds | ⟨kept, before, item, after, rfl, holds, since⟩)
    · exact ⟨items, last, [], rfl, holds, nofun⟩
    · refine ⟨before, item, after ++ [last], by rw [List.append_assoc, List.cons_append], holds, ?_⟩
      intro later member
      rcases List.mem_append.mp member with member | member
      · exact since later member
      · exact List.mem_singleton.mp member ▸ kept

end Histories

end AccessControl
