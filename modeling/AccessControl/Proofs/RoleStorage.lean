import AccessControl.Proofs.Records
import AccessControl.Proofs.RoleConstruction
import AccessControl.Role.Json

namespace AccessControl

/-- A JSON value that writes a group of this name with these members. Members that are left out are none. -/
inductive RoleGroup.Writes : Json → String → List Json → Prop
  | named {fields : Members} {name : String} {items : List Json} : fields.lookup "name" = some (.str name) →
      fields.lookup "roles" = some (.arr items) → Writes (.obj fields) name items
  | bare {fields : Members} {name : String} : fields.lookup "name" = some (.str name) →
      fields.lookup "roles" = none → Writes (.obj fields) name []
  | inOrder (name : String) (items : List Json) : Writes (.arr [.str name, .arr items]) name items
  | bareInOrder (name : String) : Writes (.arr [.str name]) name []

namespace Role

theorem toJsons_eq_map (ms : List Role) : toJsons ms = ms.map toJson := by
  induction ms with
  | nil => rfl
  | cons m rest ih => rw [toJsons, ih, List.map_cons]

theorem ofJsons?_eq_mapM (items : List Json) : ofJsons? items = items.mapM ofJson? := by
  induction items with
  | nil => rfl
  | cons item rest ih => rw [ofJsons?, ih, List.mapM_cons]

theorem listOfJson?_eq (j : Json) : listOfJson? j = Json.list? ofJson? j := by
  cases j with
  | arr items => rw [listOfJson?, ofJsons?_eq_mapM]; rfl
  | _ => rfl

theorem rolesIn?_eq (fields : Members) : rolesIn? fields = fields.orElse "roles" [] (Json.list? ofJson?) := by
  unfold Members.orElse
  induction fields with
  | nil => rfl
  | cons field rest ih =>
    obtain ⟨name, value⟩ := field
    rw [rolesIn?, List.lookup_cons, ih, listOfJson?_eq]
    by_cases here : name = "roles"
    · simp [here]
    · have apart : ("roles" == name) = false := beq_eq_false_iff_ne.mpr (Ne.symm here)
      rw [if_neg here, apart]

end Role

namespace RoleGroup

theorem exists_writes_of_ofJson? {body : Json} {g : RoleGroup} (read : ofJson? body = some g) :
    ∃ items roles, Writes body g.name items ∧
      List.Forall₂ (fun item r => Role.ofJson? item = some r) items roles ∧ g.members = roles.eraseDups := by
  unfold ofJson? at read
  cases body with
  | obj fields =>
    simp only [Role.groupOfJson?, Option.bind_eq_bind, Option.bind_eq_some_iff, Members.required, Role.rolesIn?_eq,
      Members.orElse_eq_some, Option.pure_def, Option.some.injEq] at read
    obtain ⟨name, ⟨_, atName, text⟩, roles, atRoles, rfl⟩ := read
    cases Json.text?_eq_some.mp text
    rw [withRoles_eq]
    rcases atRoles with ⟨missing, rfl⟩ | ⟨_, found, listed⟩
    · exact ⟨[], [], .bare atName missing, .nil, rfl⟩
    · obtain ⟨items, rfl, each⟩ := Json.list?_eq_some.mp listed
      exact ⟨items, roles, .named atName found, each, rfl⟩
  | arr items =>
    -- Only arrays of one or two items write a group.
    rcases items with _ | ⟨first, _ | ⟨second, _ | ⟨third, rest⟩⟩⟩
    · cases read
    · simp only [Role.groupOfJson?, Option.bind_eq_bind, Option.bind_eq_some_iff, Option.pure_def,
        Option.some.injEq] at read
      obtain ⟨name, text, rfl⟩ := read
      cases Json.text?_eq_some.mp text
      exact ⟨[], [], .bareInOrder name, .nil, rfl⟩
    · simp only [Role.groupOfJson?, Option.bind_eq_bind, Option.bind_eq_some_iff, Option.pure_def,
        Option.some.injEq, Role.listOfJson?_eq] at read
      obtain ⟨name, text, roles, listed, rfl⟩ := read
      cases Json.text?_eq_some.mp text
      obtain ⟨items, rfl, each⟩ := Json.list?_eq_some.mp listed
      rw [withRoles_eq]
      exact ⟨items, roles, .inOrder name items, each, rfl⟩
    · cases read
  | _ => cases read

theorem ofJson?_of_writes {body : Json} {name : String} {items : List Json} {roles : List Role}
    (writes : Writes body name items) (each : List.Forall₂ (fun item r => Role.ofJson? item = some r) items roles) :
    ofJson? body = some (withRoles name roles) := by
  have listed : Json.list? Role.ofJson? (.arr items) = some roles := Json.list?_eq_some.mpr ⟨items, rfl, each⟩
  unfold ofJson?
  cases writes with
  | named atName atRoles =>
    simp [Role.groupOfJson?, Members.required, atName, Json.text?, Role.rolesIn?_eq, Members.orElse, atRoles, listed]
  | bare atName missing =>
    cases each
    simp [Role.groupOfJson?, Members.required, atName, Json.text?, Role.rolesIn?_eq, Members.orElse, missing]
  | inOrder =>
    simp [Role.groupOfJson?, Json.text?, Role.listOfJson?_eq, listed]
  | bareInOrder =>
    cases each
    rfl

/-- What a group is read as: each of its written members is read, and of equal ones the first is taken. -/
theorem ofJson?_eq_some {body : Json} {g : RoleGroup} :
    ofJson? body = some g ↔ ∃ items roles, Writes body g.name items ∧
      List.Forall₂ (fun item r => Role.ofJson? item = some r) items roles ∧ g.members = roles.eraseDups := by
  constructor
  · exact exists_writes_of_ofJson?
  · rintro ⟨items, roles, writes, each, members⟩
    rw [ofJson?_of_writes writes each, withRoles_eq, ← members]

/-- The written members of a group are smaller than what writes the group. -/
theorem Writes.sizeOf_lt {body : Json} {name : String} {items : List Json} (writes : Writes body name items)
    {item : Json} (member : item ∈ items) : sizeOf item < sizeOf body := by
  have inside := List.sizeOf_lt_of_mem member
  cases writes with
  | @named fields _ _ _ atRoles =>
    obtain ⟨before, after, split, _⟩ := List.lookup_eq_some_iff.mp atRoles
    have field : ("roles", Json.arr items) ∈ fields := by simp [split]
    have smaller := List.sizeOf_lt_of_mem field
    simp only [Prod.mk.sizeOf_spec, Json.arr.sizeOf_spec] at smaller
    simp only [Json.obj.sizeOf_spec]
    omega
  | bare _ _ => cases member
  | inOrder =>
    simp only [Json.arr.sizeOf_spec, List.cons.sizeOf_spec]
    omega
  | bareInOrder => cases member

end RoleGroup

namespace Role

theorem ofJson?_eq_some {v : Json} {r : Role} :
    ofJson? v = some r ↔
      (∃ body leaf, v = .obj [("simple", body)] ∧ SimpleRole.ofJson? body = some leaf ∧ r = simple leaf) ∨
        ∃ body g, v = .obj [("group", body)] ∧ RoleGroup.ofJson? body = some g ∧ r = g.toRole := by
  constructor
  · intro read
    unfold ofJson? at read
    split at read
    · rename_i shape body
      split_ifs at read with isSimple isGroup
      · subst isSimple
        obtain ⟨leaf, made, rfl⟩ := Option.map_eq_some_iff.mp read
        exact .inl ⟨body, leaf, rfl, made, rfl⟩
      · subst isGroup
        obtain ⟨g, made, rfl⟩ := Option.map_eq_some_iff.mp read
        exact .inr ⟨body, g, rfl, made, rfl⟩
    · cases read
  · rintro (⟨body, leaf, rfl, made, rfl⟩ | ⟨body, g, rfl, made, rfl⟩)
    · simp [ofJson?, made]
    · have made' : groupOfJson? body = some g := made
      simp [ofJson?, made']

/-- What a JSON value is read as, at every depth. A group has the roles that its written members are read as, in order
and without each one that equals an earlier one. -/
inductive Reads : Json → Role → Prop
  | simple {body : Json} {leaf : SimpleRole} : SimpleRole.ofJson? body = some leaf →
      Reads (.obj [("simple", body)]) (simple leaf)
  | group {body : Json} {name : String} {items : List Json} {roles : List Role} : RoleGroup.Writes body name items →
      List.Forall₂ Reads items roles → Reads (.obj [("group", body)]) (group name roles.eraseDups)

/-- To show something of what is read from every value, it may be assumed of the written members of groups. -/
theorem written_induction {p : Json → Prop}
    (step : ∀ v, (∀ body name items, v = .obj [("group", body)] → RoleGroup.Writes body name items →
      ∀ item ∈ items, p item) → p v) (v : Json) : p v := by
  induction size : sizeOf v using Nat.strongRecOn generalizing v with
  | ind n ih =>
    subst size
    refine step v fun body name items isGroup writes item member => ih (sizeOf item) ?_ item rfl
    have smaller := writes.sizeOf_lt member
    rw [isGroup]
    simp only [Json.obj.sizeOf_spec, List.cons.sizeOf_spec, Prod.mk.sizeOf_spec]
    omega

/-- A value is read as exactly one role, which is the one that it stands for. -/
theorem ofJson?_iff_reads (v : Json) (r : Role) : ofJson? v = some r ↔ Reads v r := by
  induction v using written_induction generalizing r with
  | step v ih =>
    constructor
    · intro read
      rcases ofJson?_eq_some.mp read with ⟨body, leaf, rfl, made, rfl⟩ | ⟨body, g, rfl, made, rfl⟩
      · exact .simple made
      · obtain ⟨items, roles, writes, each, members⟩ := RoleGroup.ofJson?_eq_some.mp made
        have known := (List.forall₂_and_left items roles).mpr ⟨ih body g.name items rfl writes, each⟩
        have below : List.Forall₂ Reads items roles := known.imp fun item r both => (both.1 r).mp both.2
        rw [RoleGroup.toRole, members]
        exact .group writes below
    · intro reads
      cases reads with
      | simple made => exact ofJson?_eq_some.mpr (.inl ⟨_, _, rfl, made, rfl⟩)
      | @group body name items roles writes below =>
        have known := (List.forall₂_and_left items roles).mpr ⟨ih body name items rfl writes, below⟩
        have each : List.Forall₂ (fun item r => ofJson? item = some r) items roles :=
          known.imp fun item r both => (both.1 r).mpr both.2
        have made : RoleGroup.ofJson? body = some ⟨name, roles.eraseDups⟩ := by
          rw [RoleGroup.ofJson?_of_writes writes each, RoleGroup.withRoles_eq]
        exact ofJson?_eq_some.mpr (.inr ⟨body, _, rfl, made, rfl⟩)

/-- Nothing that is read has repetitions, at any depth. -/
theorem irredundant_of_ofJson? {v : Json} {r : Role} (read : ofJson? v = some r) : r.Irredundant := by
  induction v using written_induction generalizing r with
  | step v ih =>
    rcases ofJson?_eq_some.mp read with ⟨body, leaf, rfl, made, rfl⟩ | ⟨body, g, rfl, made, rfl⟩
    · exact .simple leaf
    · obtain ⟨items, roles, writes, each, members⟩ := RoleGroup.ofJson?_eq_some.mp made
      have below : ∀ r ∈ roles, r.Irredundant := forall_mem_of_forall₂ each fun item member r here =>
        ih body g.name items rfl writes item member here
      have whole := RoleGroup.irredundant_withRoles g.name below
      rw [RoleGroup.withRoles_eq, ← members] at whole
      exact whole

/-- A role without repetitions is read back from its encoding as it is. -/
theorem ofJson?_toJson {r : Role} (irredundant : r.Irredundant) : ofJson? r.toJson = some r := by
  induction irredundant with
  | simple leaf =>
    have own : SimpleRole.ofJson? leaf.toJson = some leaf := by
      obtain ⟨name, parent⟩ := leaf
      cases parent <;> rfl
    exact ofJson?_eq_some.mpr (.inl ⟨leaf.toJson, leaf, rfl, own, rfl⟩)
  | @group name ms distinct each ih =>
    have members : List.Forall₂ (fun item r => ofJson? item = some r) (ms.map toJson) ms :=
      List.forall₂_map_left_iff.mpr (List.forall₂_same.mpr ih)
    have writes : RoleGroup.Writes (.obj [("name", .str name), ("roles", .arr (ms.map toJson))]) name (ms.map toJson) :=
      .named rfl rfl
    have own : RoleGroup.ofJson? (.obj [("name", .str name), ("roles", .arr (ms.map toJson))]) = some ⟨name, ms⟩ := by
      rw [RoleGroup.ofJson?_of_writes writes members, RoleGroup.withRoles_of_distinct name distinct]
    refine ofJson?_eq_some.mpr (.inr ⟨_, ⟨name, ms⟩, ?_, own, rfl⟩)
    rw [toJson, toJsons_eq_map]

/-- A role or a group that was made by the operations on roles, from nothing else than names and parents, or read from
a JSON value. -/
inductive Built : Role → Prop
  | simple (leaf : SimpleRole) : Built (simple leaf)
  | withRoles (name : String) {roles : List Role} : (∀ r ∈ roles, Built r) → Built (RoleGroup.withRoles name roles)
  | add {g : RoleGroup} {r : Role} : Built g → Built r → Built (g.add r).2
  | remove {g : RoleGroup} (r : Role) : Built g → Built (g.remove r).2
  | clear {g : RoleGroup} : Built g → Built g.clear
  | read {v : Json} {r : Role} : ofJson? v = some r → Built r

theorem Built.irredundant {r : Role} (built : Built r) : r.Irredundant := by
  induction built with
  | simple leaf => exact .simple leaf
  | withRoles name _ ih => exact RoleGroup.irredundant_withRoles name ih
  | add _ _ group role => exact RoleGroup.irredundant_add group role
  | remove r _ group => exact RoleGroup.irredundant_remove group r
  | clear _ _ => exact RoleGroup.irredundant_clear _
  | read made => exact irredundant_of_ofJson? made

end Role

/-- A group is stored as the body of the role that it is. -/
theorem RoleGroup.ofJson?_toJson {g : RoleGroup} (irredundant : g.toRole.Irredundant) : ofJson? g.toJson = some g := by
  have back := Role.ofJson?_eq_some.mp (Role.ofJson?_toJson irredundant)
  rcases back with ⟨_, _, _, _, impossible⟩ | ⟨body, g', stored, made, same⟩
  · cases impossible
  · cases g
    cases g'
    cases same
    cases stored
    exact made

/-- What is made by the operations on roles comes back from its encoding as it was, and not only as an equal role. What
is read from any JSON value has the written members in order, each of which equals no earlier one, at every depth; it
has no repetitions left, so that its own encoding is read as it again. -/
theorem Role.storage_round_trip :
    (∀ r : Role, Built r → ofJson? r.toJson = some r) ∧
    (∀ g : RoleGroup, Built g → RoleGroup.ofJson? g.toJson = some g) ∧
    (∀ (v : Json) (r : Role), ofJson? v = some r ↔ Reads v r) ∧
    (∀ (v : Json) (r : Role), ofJson? v = some r → r.Irredundant ∧
      (∃ r', ofJson? r.toJson = some r' ∧ (r == r') = true) ∧ (ofJson? r.toJson).map toJson = some r.toJson) ∧
    (∀ (v : Json) (g : RoleGroup), RoleGroup.ofJson? v = some g →
      (∃ items roles, RoleGroup.Writes v g.name items ∧ List.Forall₂ Reads items roles ∧
        g.members = roles.eraseDups) ∧ g.toRole.Irredundant ∧
      (∃ g', RoleGroup.ofJson? g.toJson = some g' ∧ (g == g') = true) ∧
      (RoleGroup.ofJson? g.toJson).map RoleGroup.toJson = some g.toJson) := by
  refine ⟨fun r built => ofJson?_toJson built.irredundant, fun g built => RoleGroup.ofJson?_toJson built.irredundant,
    ofJson?_iff_reads, fun v r read => ?_, fun v g read => ?_⟩
  · have irredundant := irredundant_of_ofJson? read
    have back := ofJson?_toJson irredundant
    exact ⟨irredundant, ⟨r, back, beq_self r⟩, by rw [back]; rfl⟩
  · obtain ⟨items, roles, writes, each, members⟩ := RoleGroup.ofJson?_eq_some.mp read
    have below : List.Forall₂ Reads items roles := each.imp fun item r here => (ofJson?_iff_reads item r).mp here
    have irredundant : g.toRole.Irredundant :=
      irredundant_of_ofJson? (ofJson?_eq_some.mpr (.inr ⟨v, g, rfl, read, rfl⟩))
    have back := RoleGroup.ofJson?_toJson irredundant
    exact ⟨⟨items, roles, writes, below, members⟩, irredundant, ⟨g, back, beq_self g.toRole⟩, by rw [back]; rfl⟩

/-- Written with a group twice, the second time in another order, and with a simple role twice, a group keeps the first
of each. What comes back from its encoding keeps the order and the parent. -/
theorem Role.storage_round_trip_reordered :
    let p := Json.obj [("simple", .obj [("name", .str "p"), ("parent", .str "staff")])]
    let q := Json.obj [("simple", .obj [("name", .str "q"), ("parent", .null)])]
    let v := Json.obj [("group", .obj [("name", .str "Roles"), ("roles", .arr [
      .obj [("group", .obj [("name", .str "g"), ("roles", .arr [p, q, p])])], q,
      .obj [("group", .arr [.str "g", .arr [q, p]])], q])])]
    let g : RoleGroup := ⟨"g", [.simple ⟨"p", some "staff"⟩, .named "q"]⟩
    let r : Role := .group "Roles" [g, .named "q"]
    ofJson? v = some r ∧ Reads v r ∧ r.Irredundant ∧ ofJson? r.toJson = some r ∧
      Built g ∧ RoleGroup.ofJson? g.toJson = some g := by
  intro p q v g r
  obtain ⟨whole, group, reading, normal, _⟩ := storage_round_trip
  have read : ofJson? v = some r := by rfl
  obtain ⟨irredundant, _⟩ := normal v r read
  have members : ∀ m ∈ g.members, Built m := by
    intro m member
    rcases List.mem_pair.mp member with rfl | rfl
    · exact .simple _
    · exact .simple _
  have built : Built g := .withRoles "g" members
  exact ⟨read, (reading v r).mp read, irredundant, whole r (.read read), built, group g built⟩

end AccessControl
