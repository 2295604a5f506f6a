import AccessControl.Domain
import AccessControl.Proofs.Traversals
import AccessControl.Registry
import AccessControl.SortedMap.Lemmas

namespace AccessControl
universe u v w

/-- Every error that the result can be is of this kind. -/
def FailsOnly {α : Type v} (kind : ErrorKind) (result : Except Error α) : Prop := ∀ e, result = .error e → e.kind = kind

section FailsOnly

variable {kind : ErrorKind} {α : Type v} {β : Type v}

theorem failsOnly_ok (a : α) : FailsOnly kind (.ok a) := nofun

theorem failsOnly_error {e : Error} (same : e.kind = kind) : FailsOnly kind (.error e : Except Error α) := by
  rintro _ ⟨⟩
  exact same

theorem FailsOnly.bind {x : Except Error α} {f : α → Except Error β} (first : FailsOnly kind x)
    (later : ∀ a, FailsOnly kind (f a)) : FailsOnly kind (x >>= f) := fun e failed =>
  (bind_eq_error.mp failed).elim (first e) fun ⟨a, _, failedLater⟩ => later a e failedLater

theorem FailsOnly.map {x : Except Error α} (first : FailsOnly kind x) (f : α → β) : FailsOnly kind (x.map f) :=
  fun e failed => first e (map_eq_error.mp failed)

theorem failsOnly_mapM {ι : Type u} {f : ι → Except Error α} {items : List ι}
    (each : ∀ i ∈ items, FailsOnly kind (f i)) : FailsOnly kind (items.mapM f) := by
  intro e failed
  obtain ⟨before, item, after, split, _, failedHere⟩ := mapM_eq_error.mp failed
  refine each item ?_ e failedHere
  rw [split]
  exact List.mem_append_right before List.mem_cons_self

end FailsOnly

/-- The results of two runs are the same error, or they are values that are related. -/
inductive Alike {α β : Type v} (related : α → β → Prop) : Except Error α → Except Error β → Prop
  | error (e : Error) : Alike related (.error e) (.error e)
  | ok {a : α} {b : β} : related a b → Alike related (.ok a) (.ok b)

section Alike

variable {α α' β β' : Type v} {related : α → β → Prop} {next : α' → β' → Prop}

theorem Alike.bind {x : Except Error α} {y : Except Error β} {f : α → Except Error α'} {g : β → Except Error β'}
    (first : Alike related x y) (later : ∀ a b, related a b → Alike next (f a) (g b)) :
    Alike next (x >>= f) (y >>= g) := by
  cases first with
  | error e => exact .error e
  | ok relates => exact later _ _ relates

/-- Runs whose first steps give related values come to the same when related values do. -/
theorem Alike.bind_eq {x : Except Error α} {y : Except Error β} {f : α → Except Error α'} {g : β → Except Error α'}
    (first : Alike related x y) (later : ∀ a b, related a b → f a = g b) : (x >>= f) = (y >>= g) := by
  cases first with
  | error e => rfl
  | ok relates => exact later _ _ relates

/-- Two runs that begin with the same step differ only in what comes after it. -/
theorem Alike.bind_same {x : Except Error α} {f : α → Except Error α'} {g : α → Except Error β'}
    (later : ∀ a, x = .ok a → Alike next (f a) (g a)) : Alike next (x >>= f) (x >>= g) := by
  cases x with
  | error e => exact .error e
  | ok a => exact later a rfl

theorem Alike.mono {other : α → β → Prop} {x : Except Error α} {y : Except Error β} (alike : Alike related x y)
    (implies : ∀ a b, x = .ok a → y = .ok b → related a b → other a b) : Alike other x y := by
  cases alike with
  | error e => exact .error e
  | ok relates => exact .ok (implies _ _ rfl rfl relates)

theorem Alike.of_eq {x y : Except Error α} (same : x = y) : Alike (· = ·) x y := by
  subst same
  cases x with
  | error e => exact .error e
  | ok a => exact .ok rfl

theorem Alike.eq {x y : Except Error α} (alike : Alike (· = ·) x y) : x = y := by
  cases alike with
  | error e => rfl
  | ok same => rw [same]

theorem Alike.error_iff {x : Except Error α} {y : Except Error β} (alike : Alike related x y) (e : Error) :
    x = .error e ↔ y = .error e := by
  cases alike with
  | error e' => exact ⟨fun same => congrArg _ (Except.error.inj same), fun same => congrArg _ (Except.error.inj same)⟩
  | ok _ => exact ⟨nofun, nofun⟩

end Alike

namespace Fallible

variable {α β : Type}

theorem bind_run (x : Fallible α) (f : α → Fallible β) (trail : Trail) :
    (x >>= f).run trail =
      match (x.run trail).1 with
      | .ok a => (f a).run (x.run trail).2
      | .error e => (.error e, (x.run trail).2) := by
  have run : (x >>= f).run trail = ExceptT.bindCont f (x.run trail).1 (x.run trail).2 := rfl
  rw [run]
  cases (x.run trail).1 <;> rfl

/-- The computation gives this result whatever has happened before. -/
def Gives (x : Fallible α) (result : Except Error α) : Prop := ∀ trail, (x.run trail).1 = result

theorem Gives.bind {x : Fallible α} {f : α → Fallible β} {result : Except Error α} {g : α → Except Error β}
    (first : x.Gives result) (later : ∀ a, (f a).Gives (g a)) : (x >>= f).Gives (result >>= g) := by
  intro trail
  rw [bind_run, first trail]
  cases result with
  | error e => rfl
  | ok a => exact later a (x.run trail).2

/-- A run that succeeds has succeeded in its first step, and then in what comes after it. -/
theorem run_bind_eq_ok {x : Fallible α} {f : α → Fallible β} {trail : Trail} {b : β}
    (run : ((x >>= f).run trail).1 = .ok b) :
    ∃ a, (x.run trail).1 = .ok a ∧ ((f a).run (x.run trail).2).1 = .ok b := by
  rw [bind_run] at run
  cases first : (x.run trail).1 with
  | error e =>
    rw [first] at run
    cases run
  | ok a =>
    rw [first] at run
    exact ⟨a, rfl, run⟩

theorem gives_pure (a : α) : (pure a : Fallible α).Gives (.ok a) := fun _ => rfl

theorem gives_mapM {ι : Type} {f : ι → Fallible α} {g : ι → Except Error α} {items : List ι}
    (each : ∀ i ∈ items, (f i).Gives (g i)) : (items.mapM f).Gives (items.mapM g) := by
  induction items with
  | nil => exact gives_pure []
  | cons i rest ih =>
    obtain ⟨here, later⟩ := List.forall_mem_cons.mp each
    rw [List.mapM_cons, List.mapM_cons]
    exact here.bind fun a => (ih later).bind fun others => gives_pure (a :: others)

end Fallible

namespace Registry

variable {α : Type}

/-- What building a provider gives when nothing has happened yet. -/
def result (r : Registry α) (id : String) (options : Options) : Except Error α := ((r.create id options).run .empty).1

/-- Building this provider always gives the same, whatever has happened before. What its factory leaves on the trail is
not restricted. -/
def Steady (r : Registry α) (id : String) (options : Options) : Prop :=
  ∀ trail, ((r.create id options).run trail).1 = r.result id options

/-- The factory of this provider leaves nothing on the trail. -/
def Silent (r : Registry α) (id : String) (options : Options) : Prop :=
  r.create id options = .ofResult (r.result id options)

theorem Silent.steady {r : Registry α} {id : String} {options : Options} (silent : r.Silent id options) :
    r.Steady id options := by
  intro trail
  rw [silent]
  rfl

theorem silent_of_create {r : Registry α} {id : String} {options : Options} {given : Except Error α}
    (created : r.create id options = .ofResult given) : r.Silent id options ∧ r.result id options = given := by
  have result : r.result id options = given := by
    rw [Registry.result, created]
    rfl
  exact ⟨by rw [Silent, result, created], result⟩

theorem create_register (r : Registry α) (id other : String) (factory : Factory α)
    (options : Options) :
    (r.register id factory).create other options = if other = id then factory options else r.create other options := by
  unfold create register
  by_cases same : other = id
  · subst same
    simp only [SortedMap.get?_insert_self, if_true]
  · simp only [SortedMap.get?_insert_of_ne _ (Ne.symm same), same, if_false]

theorem contains_of_result {r : Registry α} {id : String} {options : Options} {a : α}
    (built : r.result id options = .ok a) : r.contains id = true := by
  unfold result create at built
  unfold contains SortedMap.contains
  cases known : r.factories.get? id with
  | some factory => rfl
  | none =>
    rw [known] at built
    cases built

/-- What building the modules of a chain gives, up to the first that cannot be built. -/
def results (r : Registry α) (entries : List ModuleEntry) : Except Error (List α) :=
  entries.mapM fun e => r.result e.moduleId e.options

end Registry

end AccessControl
