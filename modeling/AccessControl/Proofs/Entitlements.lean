import AccessControl.Acl.Store
import AccessControl.Proofs.AclUnion
import AccessControl.SortedMap.Lemmas

namespace AccessControl

/-- Whether a decision is reached and it lets the user in. -/
def AclLookup.permits (lookup : AclLookup) (user : String) (roles : Option RoleGroup) (resource : ResourceId)
    (requested : Permission) : Bool :=
  match lookup.decide resource user roles requested with
  | .ok .permit => true
  | _ => false

/-- What a list grants to a user, unless that is nothing. -/
def entitlement (user : String) (roles : Option RoleGroup) (found : Option Acl) : Option Permission :=
  (found.bind (·.effectivePermission user roles)).filter fun granted => !granted.isEmpty

/-- Adds what is granted on one more resource. -/
def entitle (lookup : AclLookup) (user : String) (roles : Option RoleGroup) (held : SortedMap ResourceId Permission)
    (resource : ResourceId) : Except Error (SortedMap ResourceId Permission) := do
  match (← lookup resource).bind (·.effectivePermission user roles) with
  | none => pure held
  | some granted => pure (if granted.isEmpty then held else held.insert resource granted)

theorem AclLookup.entitlements_eq_foldlM (lookup : AclLookup) (user : String) (roles : Option RoleGroup)
    (resources : List ResourceId) :
    lookup.entitlements user roles resources = resources.foldlM (entitle lookup user roles) .empty := rfl

/-- The map holds what is granted on the resources seen, and nothing else. -/
def Entitles (stored : ResourceId → Option Acl) (user : String) (roles : Option RoleGroup) (seen : List ResourceId)
    (held : SortedMap ResourceId Permission) : Prop :=
  ∀ r, held.get? r = if r ∈ seen then entitlement user roles (stored r) else none

section Entitlements

variable {lookup : AclLookup} {stored : ResourceId → Option Acl} {user : String} {roles : Option RoleGroup}

theorem entitlement_eq_some {found : Option Acl} {granted : Permission} :
    entitlement user roles found = some granted ↔
      found.bind (·.effectivePermission user roles) = some granted ∧ granted ≠ .empty := by
  rw [entitlement, Option.filter_eq_some_iff, Bool.not_eq_true', Bool.eq_false_iff, ne_eq, Permission.isEmpty_iff]

theorem entitle_of_answer {resource : ResourceId} (answer : lookup resource = .ok (stored resource))
    (held : SortedMap ResourceId Permission) :
    entitle lookup user roles held resource =
      .ok ((entitlement user roles (stored resource)).elim held (held.insert resource)) := by
  unfold entitle entitlement
  rw [answer]
  change (match (stored resource).bind (·.effectivePermission user roles) with
    | none => pure held
    | some granted => pure (if granted.isEmpty then held else held.insert resource granted) :
      Except Error (SortedMap ResourceId Permission)) = _
  cases (stored resource).bind (·.effectivePermission user roles) with
  | none => rfl
  | some granted =>
    simp only [Option.filter_some]
    cases granted.isEmpty <;> rfl

/-- One more resource is seen. Whether it has been seen before makes no difference. -/
theorem Entitles.step {seen : List ResourceId} {held : SortedMap ResourceId Permission}
    (entitles : Entitles stored user roles seen held) (resource : ResourceId) :
    Entitles stored user roles (seen ++ [resource])
      ((entitlement user roles (stored resource)).elim held (held.insert resource)) := by
  intro r
  simp only [List.mem_append, List.mem_singleton]
  by_cases here : resource = r
  · subst here
    rw [if_pos (.inr rfl)]
    cases given : entitlement user roles (stored resource) with
    | some granted => exact held.get?_insert_self resource granted
    | none =>
      have before := entitles resource
      rw [given] at before
      rw [Option.elim_none, before, ite_self]
  · have apart : (r ∈ seen ∨ r = resource) ↔ r ∈ seen := or_iff_left (Ne.symm here)
    simp only [apart]
    rw [← entitles r]
    cases entitlement user roles (stored resource) with
    | none => rfl
    | some granted => exact held.get?_insert_of_ne here granted

/-- As long as every resource can be looked up, all of them are seen. -/
theorem Entitles.run {seen resources : List ResourceId} {held : SortedMap ResourceId Permission}
    (entitles : Entitles stored user roles seen held) (answers : ∀ r ∈ resources, lookup r = .ok (stored r)) :
    ∃ last, resources.foldlM (entitle lookup user roles) held = .ok last ∧
      Entitles stored user roles (seen ++ resources) last := by
  induction resources generalizing seen held with
  | nil =>
    rw [List.append_nil]
    exact ⟨held, rfl, entitles⟩
  | cons first rest ih =>
    obtain ⟨here, later⟩ := List.forall_mem_cons.mp answers
    obtain ⟨last, run, final⟩ := ih (entitles.step first) later
    rw [List.append_assoc] at final
    refine ⟨last, ?_, final⟩
    rw [List.foldlM_cons, entitle_of_answer here]
    exact run

theorem exists_entitlements {resources : List ResourceId} (answers : ∀ r ∈ resources, lookup r = .ok (stored r)) :
    ∃ held, lookup.entitlements user roles resources = .ok held ∧ Entitles stored user roles resources held := by
  have start : Entitles stored user roles [] .empty := fun r => by
    rw [if_neg List.not_mem_nil, SortedMap.get?_empty]
  rw [AclLookup.entitlements_eq_foldlM]
  exact start.run answers

/-- The resources seen matter, their order and number do not. -/
theorem Entitles.unique {seen seen' : List ResourceId} {held held' : SortedMap ResourceId Permission}
    (entitles : Entitles stored user roles seen held) (entitles' : Entitles stored user roles seen' held')
    (same : ∀ r, r ∈ seen ↔ r ∈ seen') : held = held' := by
  refine SortedMap.ext_get? fun r => ?_
  rw [entitles r, entitles' r]
  simp only [same r]

theorem Entitles.get?_eq_some {seen : List ResourceId} {held : SortedMap ResourceId Permission}
    (entitles : Entitles stored user roles seen held) {resource : ResourceId} {granted : Permission} :
    held.get? resource = some granted ↔
      resource ∈ seen ∧ (stored resource).bind (·.effectivePermission user roles) = some granted ∧
        granted ≠ .empty := by
  rw [entitles resource, ← entitlement_eq_some]
  by_cases member : resource ∈ seen <;> simp [member]

namespace AclLookup

variable {resource : ResourceId} {found : Option Acl}

theorem decide_eq_permits (answer : lookup resource = .ok found) (requested : Permission) :
    lookup.decide resource user roles requested = .ok (.ofBool (lookup.permits user roles resource requested)) := by
  unfold permits
  rw [decide_of_answer answer]
  cases found.bind (·.effectivePermission user roles) with
  | none => rfl
  | some granted =>
    dsimp only
    cases granted.contains requested <;> rfl

theorem permits_iff (answer : lookup resource = .ok found) {requested : Permission} :
    lookup.permits user roles resource requested = true ↔
      ∃ granted, found.bind (·.effectivePermission user roles) = some granted ∧
        granted.contains requested = true := by
  unfold permits
  rw [decide_of_answer answer]
  cases found.bind (·.effectivePermission user roles) with
  | none => exact ⟨nofun, nofun⟩
  | some granted =>
    cases contained : granted.contains requested <;> simp [Decision.ofBool, contained]

/-- The empty request is granted by any entry that speaks of the user, whatever it grants. -/
theorem permits_empty_iff (answer : lookup resource = .ok found) :
    lookup.permits user roles resource .empty = true ↔
      ∃ acl, found = some acl ∧ ∃ e ∈ acl.entries, Acl.concerns user roles e = true := by
  rw [permits_iff answer]
  simp only [Permission.contains_empty, and_true]
  cases found with
  | none => simp
  | some acl =>
    rw [← Option.isSome_iff_exists, ← Option.ne_none_iff_isSome, Option.bind_some, ne_eq,
      Acl.effectivePermission_eq_none]
    simp

variable {resources : List ResourceId} {held : SortedMap ResourceId Permission}

theorem mem_keys_iff (answers : ∀ r ∈ resources, lookup r = .ok (stored r))
    (entitles : Entitles stored user roles resources held) {r : ResourceId} :
    r ∈ held.keys ↔ r ∈ resources ∧ ∃ p ∈ Permission.singles, lookup.permits user roles r p = true := by
  rw [SortedMap.mem_keys, SortedMap.contains, Option.isSome_iff_exists]
  simp only [entitles.get?_eq_some, exists_and_left]
  refine and_congr_right fun member => ?_
  simp only [permits_iff (answers r member)]
  constructor
  · rintro ⟨granted, effective, nonempty⟩
    obtain ⟨p, bit, contained⟩ := Permission.exists_single_contained nonempty
    exact ⟨p, bit, granted, effective, contained⟩
  · rintro ⟨p, bit, granted, effective, contained⟩
    obtain ⟨i, bound, rfl⟩ := Permission.mem_singles.mp bit
    exact ⟨granted, effective, Permission.ne_empty_of_contains contained (Permission.single_ne_empty bound)⟩

theorem permits_iff_held (answers : ∀ r ∈ resources, lookup r = .ok (stored r))
    (entitles : Entitles stored user roles resources held) {r : ResourceId} (member : r ∈ resources) {p : Permission}
    (nonempty : p ≠ .empty) :
    lookup.permits user roles r p = true ↔ ∃ granted, held.get? r = some granted ∧ granted.contains p = true := by
  rw [permits_iff (answers r member)]
  refine exists_congr fun granted => ?_
  rw [entitles.get?_eq_some, and_assoc, and_assoc, and_iff_right member]
  exact and_congr_right fun _ =>
    ⟨fun contained => ⟨Permission.ne_empty_of_contains contained nonempty, contained⟩, And.right⟩

theorem held_eq_union (answers : ∀ r ∈ resources, lookup r = .ok (stored r))
    (entitles : Entitles stored user roles resources held) {r : ResourceId} {granted : Permission}
    (value : held.get? r = some granted) :
    granted = (Permission.singles.filter (lookup.permits user roles r)).foldl .union .empty := by
  obtain ⟨member, effective, _⟩ := entitles.get?_eq_some.mp value
  have same : lookup.permits user roles r = granted.contains := by
    funext p
    rw [Bool.eq_iff_iff, permits_iff (answers r member), effective]
    simp only [Option.some.injEq, exists_eq_left']
  rw [same]
  exact granted.eq_union_of_singles

/-- Two questions about the lists give one account of them, as long as the lists can be looked up. The resources on
which a user is said to hold something are the listed ones where some bit is permitted. What is held there is the union
of the permitted bits, so that a request for anything at all is permitted exactly when all of it is held. It does not
matter in which order, or how often, the resources are listed. A request for nothing is permitted by any entry that
speaks of the user, even one that grants nothing. -/
theorem entitlements_agree_with_decide (user : String) (roles : Option RoleGroup)
    (answers : ∀ r ∈ resources, lookup r = .ok (stored r)) :
    (∃ held, lookup.entitlements user roles resources = .ok held ∧
      (∀ r, r ∈ held.keys ↔ r ∈ resources ∧ ∃ p ∈ Permission.singles, lookup.permits user roles r p = true) ∧
      (∀ r ∈ resources, ∀ p, p ≠ .empty →
        (lookup.permits user roles r p = true ↔ ∃ granted, held.get? r = some granted ∧ granted.contains p = true)) ∧
      (∀ r granted, held.get? r = some granted →
        granted = (Permission.singles.filter (lookup.permits user roles r)).foldl .union .empty) ∧
      (∀ others, (∀ r, r ∈ others ↔ r ∈ resources) → lookup.entitlements user roles others = .ok held)) ∧
    (∀ r ∈ resources, ∀ p,
      lookup.decide r user roles p = .ok (if lookup.permits user roles r p then .permit else .deny)) ∧
    (∀ r ∈ resources, lookup.permits user roles r .empty = true ↔
      ∃ acl, stored r = some acl ∧ ∃ e ∈ acl.entries, e.identity = .user user ∨
        ∃ group name, roles = some group ∧ e.identity = .role name ∧ group.holds name = true) := by
  refine ⟨?_, ?_, ?_⟩
  · obtain ⟨held, run, entitles⟩ := exists_entitlements answers
    refine ⟨held, run, fun r => mem_keys_iff answers entitles, fun r member p nonempty =>
      permits_iff_held answers entitles member nonempty, fun r granted value =>
      held_eq_union answers entitles value, ?_⟩
    intro others same
    obtain ⟨held', run', entitles'⟩ := exists_entitlements fun r member => answers r ((same r).mp member)
    rw [run', entitles'.unique entitles same]
  · intro r member p
    exact decide_eq_permits (answers r member) p
  · intro r member
    rw [permits_empty_iff (answers r member)]
    simp only [Acl.concerns_iff]

/-- An entry for a nested role grants a bit without a name, another list grants nothing to the user, and the third
resource has no list. -/
theorem entitlements_agree_with_decide_unnamed_bit :
    let report : ResourceId := ⟨.acl, "report"⟩
    let budget : ResourceId := ⟨.acl, "budget"⟩
    let absent : ResourceId := ⟨.web, "report"⟩
    let acls : SortedMap ResourceId Acl := .ofList [(report, ⟨report, [⟨.user "ann", ⟨1⟩⟩, ⟨.role "clerk", ⟨16⟩⟩]⟩),
      (budget, ⟨budget, [⟨.user "ann", .empty⟩]⟩)]
    let store : MemoryStore := ⟨.reject, acls⟩
    let lookup := (AclStore.memory store).lookup
    let roles : Option RoleGroup := some ⟨"staff", [.group "inner" [.named "clerk"]]⟩
    let resources := [report, absent, budget, report]
    (∀ r ∈ resources, lookup r = .ok (store.get? r)) ∧
      (∃ held, lookup.entitlements "ann" roles [absent, report, budget] = .ok held ∧ held.keys = [report] ∧
        held.get? report = some ⟨17⟩) ∧
      lookup.permits "ann" roles report ⟨16⟩ = true ∧ ¬lookup.permits "ann" roles report ⟨18⟩ = true ∧
      lookup.permits "ann" roles budget .empty = true ∧ ¬lookup.permits "ann" roles absent .empty = true := by
  intro report budget absent acls store lookup roles resources
  have answers : ∀ r ∈ resources, lookup r = .ok (store.get? r) := fun _ _ => rfl
  obtain ⟨⟨held, _, _, requests, _, order⟩, _, nothing⟩ := entitlements_agree_with_decide "ann" roles answers
  have reordered : ∀ r, r ∈ [absent, report, budget] ↔ r ∈ resources := by
    intro r
    simp only [resources, List.mem_cons, List.not_mem_nil, or_false]
    grind
  have all : held = .ofList [(report, ⟨17⟩)] := by
    have run : (lookup.entitlements "ann" roles [absent, report, budget]).toOption =
      some (.ofList [(report, ⟨17⟩)]) := by decide +kernel
    rw [order _ reordered] at run
    exact Option.some.inj run
  have granted : held.get? report = some ⟨17⟩ := by
    rw [all]
    decide
  refine ⟨answers, ⟨held, order _ reordered, by rw [all]; rfl, granted⟩, ?_, ?_, ?_, ?_⟩
  · exact (requests report (by decide) ⟨16⟩ (by decide)).mpr ⟨⟨17⟩, granted, by decide⟩
  · intro permitted
    obtain ⟨p, value, contained⟩ := (requests report (by decide) ⟨18⟩ (by decide)).mp permitted
    cases value.symm.trans granted
    revert contained
    decide
  · have stored : store.get? budget = some ⟨budget, [⟨.user "ann", .empty⟩]⟩ := by decide
    exact (nothing budget (by decide)).mpr ⟨_, stored, _, List.mem_singleton.mpr rfl, .inl rfl⟩
  · intro permitted
    obtain ⟨acl, found, _⟩ := (nothing absent (by decide)).mp permitted
    have stored : store.get? absent = none := by decide
    cases stored.symm.trans found

end AclLookup

end Entitlements

end AccessControl
