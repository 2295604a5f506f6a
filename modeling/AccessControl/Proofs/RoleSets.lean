import AccessControl.Proofs.StandardDomain
import Mathlib.Data.Finset.Union

namespace AccessControl

namespace RoleGroup

/-- The set of the names that a group reaches. -/
def leafSet (g : RoleGroup) : Finset String := g.leafNames.keys.toFinset

theorem mem_leafSet {g : RoleGroup} {name : String} : name ∈ g.leafSet ↔ g.HasLeaf name := by
  rw [leafSet, List.mem_toFinset, mem_leafNames]

theorem addNames_name (g : RoleGroup) (names : List String) : (g.addNames names).name = g.name := by
  unfold addNames addAll
  generalize names.map Role.named = roles
  induction roles generalizing g with
  | nil => rfl
  | cons r rest ih => exact (ih _).trans (g.add_name r)

theorem foldl_addNames_name {α : Type} (names : α → List String) (items : List α) (g : RoleGroup) :
    (items.foldl (fun g item => g.addNames (names item)) g).name = g.name := by
  induction items generalizing g with
  | nil => rfl
  | cons item rest ih => exact (ih _).trans (g.addNames_name (names item))

end RoleGroup

/-- What a role mapper does to the set of the names held, apart from all nesting and order: it grants by principal,
extends by what is held, or replaces what is held. -/
inductive RoleRule
  | grant (table : SortedMap String (List String))
  | extend (table : SortedMap String (List String))
  | replace (table : SortedMap String (List String))

namespace RoleRule

/-- All that a table lists under some of the names. -/
def listed (table : SortedMap String (List String)) (names : Finset String) : Finset String :=
  names.biUnion fun name => ((table.get? name).getD []).toFinset

/-- A replacing rule keeps exactly the names that its table does not list. -/
def apply (subject : Subject) : RoleRule → Finset String → Finset String
  | grant table, held => held ∪ listed table (subject.principals.map (·.name)).toFinset
  | extend table, held => held ∪ listed table held
  | replace table, held => listed table held ∪ held.filter fun name => table.get? name = none

/-- One rule after another. -/
def applyAll (subject : Subject) (rules : List RoleRule) (held : Finset String) : Finset String :=
  rules.foldl (fun held rule => rule.apply subject held) held

/-- The mapper for a rule. -/
def mapper : RoleRule → RoleMapper
  | grant table => ⟨fun subject roles => .ok (RoleMapper.grantByPrincipal table subject roles)⟩
  | extend table => ⟨fun _ roles => .ok (RoleMapper.byTable table false roles)⟩
  | replace table => ⟨fun _ roles => .ok (RoleMapper.byTable table true roles)⟩

theorem mem_listed {table : SortedMap String (List String)} {names : Finset String} {name : String} :
    name ∈ listed table names ↔ ∃ key ∈ names, name ∈ (table.get? key).getD [] := by
  simp only [listed, Finset.mem_biUnion, List.mem_toFinset]

theorem listed_union (table : SortedMap String (List String)) (a b : Finset String) :
    listed table (a ∪ b) = listed table a ∪ listed table b := Finset.union_biUnion

theorem apply_union (rule : RoleRule) (subject : Subject) (a b : Finset String) :
    rule.apply subject (a ∪ b) = rule.apply subject a ∪ rule.apply subject b := by
  cases rule with
  | grant table => exact Finset.union_union_distrib_right a b _
  | extend table =>
    simp only [apply, listed_union]
    exact Finset.union_union_union_comm a b _ _
  | replace table =>
    simp only [apply, listed_union, Finset.filter_union]
    exact Finset.union_union_union_comm _ _ _ _

theorem subset_apply {rule : RoleRule} (keeps : ∀ table, rule ≠ .replace table) (subject : Subject)
    (held : Finset String) : held ⊆ rule.apply subject held := by
  cases rule with
  | grant table => exact Finset.subset_union_left
  | extend table => exact Finset.subset_union_left
  | replace table => exact absurd rfl (keeps table)

theorem applyAll_union (rules : List RoleRule) (subject : Subject) (a b : Finset String) :
    applyAll subject rules (a ∪ b) = applyAll subject rules a ∪ applyAll subject rules b := by
  unfold applyAll
  induction rules generalizing a b with
  | nil => rfl
  | cons rule rest ih =>
    rw [List.foldl_cons, apply_union]
    exact ih _ _

theorem subset_applyAll {rules : List RoleRule} (keeps : ∀ table, RoleRule.replace table ∉ rules) (subject : Subject)
    (held : Finset String) : held ⊆ applyAll subject rules held := by
  unfold applyAll
  induction rules generalizing held with
  | nil => exact Finset.Subset.refl held
  | cons rule rest ih =>
    have first := subset_apply (fun table same => keeps table (same ▸ List.mem_cons_self)) subject held
    exact first.trans (ih (fun table member => keeps table (List.mem_cons_of_mem _ member)) _)

theorem leafSet_grantByPrincipal (table : SortedMap String (List String)) (subject : Subject) (roles : RoleGroup) :
    (RoleMapper.grantByPrincipal table subject roles).leafSet = (grant table).apply subject roles.leafSet := by
  ext name
  simp only [apply, Finset.mem_union, mem_listed, RoleGroup.mem_leafSet, RoleMapper.hasLeaf_grantByPrincipal,
    List.mem_toFinset, List.mem_map, exists_exists_and_eq_and]

theorem leafSet_byTable_extend (table : SortedMap String (List String)) (subject : Subject) (roles : RoleGroup) :
    (RoleMapper.byTable table false roles).leafSet = (extend table).apply subject roles.leafSet := by
  ext name
  simp only [apply, Finset.mem_union, mem_listed, RoleGroup.mem_leafSet, RoleMapper.hasLeaf_byTable,
    RoleMapper.targets, true_and, Bool.false_eq_true, if_false]

theorem leafSet_byTable_replace (table : SortedMap String (List String)) (subject : Subject) (roles : RoleGroup) :
    (RoleMapper.byTable table true roles).leafSet = (replace table).apply subject roles.leafSet := by
  have targets (held name : String) : name ∈ RoleMapper.targets table true held ↔
      name ∈ (table.get? held).getD [] ∨ table.get? held = none ∧ name = held := by
    unfold RoleMapper.targets
    cases table.get? held <;> simp
  ext name
  simp only [apply, Finset.mem_union, mem_listed, Finset.mem_filter, RoleGroup.mem_leafSet,
    RoleMapper.hasLeaf_byTable, targets, Bool.true_eq_false, false_and, false_or, and_or_left, exists_or]
  refine or_congr_right ⟨?_, ?_⟩
  · rintro ⟨_, leaf, unlisted, rfl⟩
    exact ⟨leaf, unlisted⟩
  · rintro ⟨leaf, unlisted⟩
    exact ⟨name, leaf, unlisted, rfl⟩

/-- The mapper for a rule always succeeds, keeps the name of the group, and does what the rule says. -/
theorem mapper_follows (rule : RoleRule) (subject : Subject) (roles : RoleGroup) :
    ∃ mapped, rule.mapper.map subject roles = .ok mapped ∧ mapped.name = roles.name ∧
      mapped.leafSet = rule.apply subject roles.leafSet := by
  cases rule with
  | grant table =>
    exact ⟨_, rfl, RoleGroup.foldl_addNames_name _ _ roles, leafSet_grantByPrincipal table subject roles⟩
  | extend table =>
    refine ⟨_, rfl, ?_, leafSet_byTable_extend table subject roles⟩
    rw [RoleMapper.byTable_eq_foldl]
    exact RoleGroup.foldl_addNames_name _ _ roles
  | replace table =>
    refine ⟨_, rfl, ?_, leafSet_byTable_replace table subject roles⟩
    rw [RoleMapper.byTable_eq_foldl]
    exact RoleGroup.foldl_addNames_name _ _ (.empty roles.name)

end RoleRule

namespace Mapping

/-- A chain of mappers does to the set of names what its rules do one after another. -/
theorem mapRoles_follows {mapping : Mapping} {rules : List RoleRule}
    (chain : mapping.roleMappers = rules.map RoleRule.mapper) (subject : Subject) (roles : RoleGroup) :
    ∃ mapped, mapping.mapRoles subject roles = .ok mapped ∧ mapped.name = roles.name ∧
      mapped.leafSet = RoleRule.applyAll subject rules roles.leafSet := by
  unfold mapRoles RoleRule.applyAll
  rw [chain]
  clear chain
  induction rules generalizing roles with
  | nil => exact ⟨roles, rfl, rfl, rfl⟩
  | cons rule rest ih =>
    obtain ⟨next, step, nextName, nextSet⟩ := rule.mapper_follows subject roles
    obtain ⟨mapped, run, name, set⟩ := ih next
    rw [List.map_cons, List.foldlM_cons, step]
    exact ⟨mapped, run, name.trans nextName, set.trans (by rw [nextSet, List.foldl_cons])⟩

end Mapping

/-- The rule that an entry of a mapping chain stands for. -/
inductive MappingEntry.Means (e : MappingEntry) : RoleRule → Prop
  | grant {table : SortedMap String (List String)} : e.providerId = "principal-roles" →
      e.options.listTable "principals" = .ok table → Means e (.grant table)
  | extend {table : SortedMap String (List String)} {replaces : Option Bool} : e.providerId = "role-map" →
      e.options.listTable "roles" = .ok table → e.options.flag? "replace-roles" = .ok replaces →
      replaces ≠ some true → Means e (.extend table)
  | replace {table : SortedMap String (List String)} : e.providerId = "role-map" →
      e.options.listTable "roles" = .ok table → e.options.flag? "replace-roles" = .ok (some true) →
      Means e (.replace table)

theorem RoleMapper.eq_of_principalRoles {options : Options} {mapper : RoleMapper}
    (made : principalRoles options = .ok mapper) :
    ∃ table, options.listTable "principals" = .ok table ∧ mapper = (RoleRule.grant table).mapper := by
  obtain ⟨table, listed, same⟩ := bind_eq_ok.mp made
  cases same
  exact ⟨table, listed, rfl⟩

theorem RoleMapper.eq_of_roleMap {options : Options} {mapper : RoleMapper} (made : roleMap options = .ok mapper) :
    ∃ table replaces, options.listTable "roles" = .ok table ∧ options.flag? "replace-roles" = .ok replaces ∧
      mapper = (if replaces = some true then RoleRule.replace table else .extend table).mapper := by
  obtain ⟨table, listed, made⟩ := bind_eq_ok.mp made
  obtain ⟨replaces, flag, same⟩ := bind_eq_ok.mp made
  cases same
  refine ⟨table, replaces, listed, flag, ?_⟩
  match replaces with
  | none => rfl
  | some false => rfl
  | some true => rfl

namespace Providers

theorem builtin_create_roleMapper (id : String) (options : Options) :
    builtin.roleMappers.create id options =
      if id = "role-map" then .ofResult (RoleMapper.roleMap options)
      else if id = "principal-roles" then .ofResult (RoleMapper.principalRoles options)
      else (Registry.empty .roleMapper).create id options := by
  simp only [builtin, Registry.create_register, Registry.registerAll, List.foldl_cons, List.foldl_nil,
    Factory.ofOptions]

theorem Standard.create_roleMapper {library : Providers} (standard : library.Standard) (id : String)
    (options : Options) : library.roleMappers.create id options = builtin.roleMappers.create id options := by
  cases standard <;> rfl

/-- What the library makes of an entry is the mapper for the rule that the entry stands for. -/
theorem Standard.roleMapper_means {library : Providers} (standard : library.Standard) {e : MappingEntry}
    {mapper : RoleMapper} (made : library.roleMappers.result e.providerId e.options = .ok mapper) :
    ∃ rule, e.Means rule ∧ mapper = rule.mapper := by
  have created := standard.create_roleMapper e.providerId e.options
  rw [builtin_create_roleMapper] at created
  split_ifs at created with byRole byPrincipal
  · rw [(Registry.silent_of_create created).2] at made
    obtain ⟨table, replaces, listed, flag, rfl⟩ := RoleMapper.eq_of_roleMap made
    by_cases replacing : replaces = some true
    · exact ⟨_, .replace byRole listed (replacing ▸ flag), by rw [if_pos replacing]⟩
    · exact ⟨_, .extend byRole listed flag replacing, by rw [if_neg replacing]⟩
  · rw [(Registry.silent_of_create created).2] at made
    obtain ⟨table, listed, rfl⟩ := RoleMapper.eq_of_principalRoles made
    exact ⟨_, .grant byPrincipal listed, rfl⟩
  · rw [Registry.result, created] at made
    cases made

end Providers

namespace Mapping

theorem roleMappers_of_build {config : DomainConfig} {roleMappers : Registry RoleMapper}
    {principalMappers : Registry PrincipalMapper} {trail : Trail} {mapping : Mapping}
    (steady : ∀ e ∈ config.roleMapping, roleMappers.Steady e.providerId e.options)
    (built : ((build config roleMappers principalMappers).run trail).1 = .ok mapping) :
    config.roleMapping.mapM (fun e => roleMappers.result e.providerId e.options) = .ok mapping.roleMappers := by
  obtain ⟨roles, made, later⟩ := Fallible.run_bind_eq_ok built
  obtain ⟨principals, _, same⟩ := Fallible.run_bind_eq_ok later
  cases same
  exact (Fallible.gives_mapM steady trail).symm.trans made

theorem exists_rules_of_each {entries : List MappingEntry} {mappers : List RoleMapper}
    (each : List.Forall₂ (fun e mapper => ∃ rule : RoleRule, e.Means rule ∧ mapper = rule.mapper) entries mappers) :
    ∃ rules, List.Forall₂ MappingEntry.Means entries rules ∧ mappers = rules.map RoleRule.mapper :=
  exists_map_of_forall₂ each

/-- Mapping roles is a fold over the set of the names that a group reaches, whatever the nesting, the order, the parents
and the repetitions in the group. It always succeeds and keeps the name of the group. So what is mapped together is
mapped one by one, and only a replacing rule can take a name away. Every chain that the library builds is of this
kind. -/
theorem mapRoles_transforms_leafSet :
    (∀ (rules : List RoleRule) (mapping : Mapping), mapping.roleMappers = rules.map RoleRule.mapper →
      ∀ subject : Subject,
        (∀ roles, ∃ mapped, mapping.mapRoles subject roles = .ok mapped ∧ mapped.name = roles.name ∧
          mapped.leafSet = RoleRule.applyAll subject rules roles.leafSet) ∧
        (∀ a b c a' b' c', mapping.mapRoles subject a = .ok a' → mapping.mapRoles subject b = .ok b' →
          mapping.mapRoles subject c = .ok c' → c.leafSet = a.leafSet ∪ b.leafSet →
          c'.leafSet = a'.leafSet ∪ b'.leafSet) ∧
        ((∀ table, RoleRule.replace table ∉ rules) → ∀ roles mapped, mapping.mapRoles subject roles = .ok mapped →
          roles.leafSet ⊆ mapped.leafSet)) ∧
    (∀ (config : DomainConfig) (providers library : Providers) (trail : Trail) (mapping : Mapping), library.Standard →
      (∀ e ∈ config.roleMapping,
        providers.roleMappers.create e.providerId = library.roleMappers.create e.providerId) →
      ((build config providers.roleMappers providers.principalMappers).run trail).1 = .ok mapping →
      ∃ rules, List.Forall₂ MappingEntry.Means config.roleMapping rules ∧
        mapping.roleMappers = rules.map RoleRule.mapper) := by
  refine ⟨fun rules mapping chain subject => ?_, fun config providers library trail mapping standard drawn built => ?_⟩
  · have value : ∀ roles mapped, mapping.mapRoles subject roles = .ok mapped →
        mapped.leafSet = RoleRule.applyAll subject rules roles.leafSet := by
      intro roles mapped run
      obtain ⟨_, run', _, set⟩ := mapRoles_follows chain subject roles
      cases run.symm.trans run'
      exact set
    refine ⟨mapRoles_follows chain subject, fun a b c a' b' c' runA runB runC together => ?_,
      fun keeps roles mapped run => ?_⟩
    · rw [value a a' runA, value b b' runB, value c c' runC, together]
      exact RoleRule.applyAll_union rules subject a.leafSet b.leafSet
    · rw [value roles mapped run]
      exact RoleRule.subset_applyAll keeps subject roles.leafSet
  · have makes : ∀ e ∈ config.roleMapping,
        Factory.Makes (providers.roleMappers.create e.providerId) RoleMapper.Tabled :=
      fun e member => drawn e member ▸ standard.roleMappers e.providerId
    have traversed := roleMappers_of_build
      (fun e member => (Registry.silent_of_makes (makes e member) e.options).steady) built
    have pairs := (List.forall₂_and_left _ _).mpr ⟨fun e member => member, mapM_eq_ok.mp traversed⟩
    refine exists_rules_of_each (pairs.imp fun e mapper ⟨member, made⟩ => standard.roleMapper_means ?_)
    rw [Registry.result, drawn e member] at made
    exact made

/-- A clerk inside a nested group loses that role, which the table lists with no target, and keeps the one that it does
not list. The role that one of the principals brings is mapped on. -/
theorem mapRoles_transforms_leafSet_replacing :
    let grants := Options.empty.withValue "principals" (.obj [("ann", .arr [.str "auditor"])])
    let table := Options.empty.withValue "roles" (.obj [("clerk", .arr []), ("auditor", .arr [.str "reviewer"])])
    let config := { DomainConfig.ofName "ledger" with
      roleMapping := [⟨"principal-roles", grants⟩, ⟨"role-map", table.withValue "replace-roles" (.bool true)⟩] }
    let subject : Subject := ⟨[⟨"desk-7"⟩, ⟨"ann"⟩], .empty⟩
    let clerks : RoleGroup := ⟨"Staff", [.group "desk" [.simple ⟨"clerk", some "Roles"⟩]]⟩
    let tellers : RoleGroup := ⟨"Staff", [.named "teller"]⟩
    let staff : RoleGroup := ⟨"Staff", [.named "teller", .group "desk" [.named "clerk", .group "empty" []]]⟩
    let rules : List RoleRule := [.grant (.ofList [("ann", ["auditor"])]),
      .replace (.ofList [("clerk", []), ("auditor", ["reviewer"])])]
    let mapping : Mapping := ⟨rules.map RoleRule.mapper, []⟩
    ∃ clerks' tellers' staff',
      ((build config Providers.builtin.roleMappers Providers.builtin.principalMappers).run .empty).1 = .ok mapping ∧
      (∃ rules' : List RoleRule, mapping.roleMappers = rules'.map RoleRule.mapper) ∧
      mapping.mapRoles subject clerks = .ok clerks' ∧ mapping.mapRoles subject tellers = .ok tellers' ∧
      mapping.mapRoles subject staff = .ok staff' ∧ staff'.name = "Staff" ∧
      clerks'.leafSet = {"reviewer"} ∧ tellers'.leafSet = {"reviewer", "teller"} ∧
      staff'.leafSet = clerks'.leafSet ∪ tellers'.leafSet := by
  intro grants table config subject clerks tellers staff rules mapping
  have granted : grants.listTable "principals" = .ok (.ofList [("ann", ["auditor"])]) := by decide +kernel
  have listed : (table.withValue "replace-roles" (.bool true)).listTable "roles" =
      .ok (.ofList [("clerk", []), ("auditor", ["reviewer"])]) := by decide +kernel
  have flag : (table.withValue "replace-roles" (.bool true)).flag? "replace-roles" = .ok (some true) := by
    decide +kernel
  have first : Providers.builtin.roleMappers.create "principal-roles" grants =
      .ofResult (.ok (RoleRule.grant (.ofList [("ann", ["auditor"])])).mapper) := by
    rw [Providers.builtin_create_roleMapper, if_neg (by decide), if_pos rfl, RoleMapper.principalRoles, granted]
    rfl
  have second : Providers.builtin.roleMappers.create "role-map" (table.withValue "replace-roles" (.bool true)) =
      .ofResult (.ok (RoleRule.replace (.ofList [("clerk", []), ("auditor", ["reviewer"])])).mapper) := by
    rw [Providers.builtin_create_roleMapper, if_pos rfl, RoleMapper.roleMap, listed, flag]
    rfl
  have built : ((build config Providers.builtin.roleMappers Providers.builtin.principalMappers).run .empty).1 =
      .ok mapping := by
    simp only [build, config, List.mapM_cons, List.mapM_nil, first, second]
    rfl
  obtain ⟨rules', _, chain⟩ := mapRoles_transforms_leafSet.2 config Providers.builtin .builtin .empty mapping .plain
    (fun _ _ => rfl) built
  obtain ⟨follows, together, _⟩ := mapRoles_transforms_leafSet.1 rules mapping rfl subject
  obtain ⟨clerks', runClerks, _, setClerks⟩ := follows clerks
  obtain ⟨tellers', runTellers, _, setTellers⟩ := follows tellers
  obtain ⟨staff', runStaff, name, _⟩ := follows staff
  refine ⟨clerks', tellers', staff', built, ⟨rules', chain⟩, runClerks, runTellers, runStaff, name, ?_, ?_, ?_⟩
  · rw [setClerks]
    decide +kernel
  · rw [setTellers]
    decide +kernel
  · exact together clerks tellers staff clerks' tellers' staff' runClerks runTellers runStaff (by decide +kernel)

end Mapping

end AccessControl
