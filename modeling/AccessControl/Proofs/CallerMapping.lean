import AccessControl.Proofs.RoleSets

namespace AccessControl

/-- The principal under the name that a table gives to it. A name that the table does not list stays. -/
def Principal.renamed (p : Principal) (table : SortedMap String String) : Principal :=
  ⟨(table.get? p.name).getD p.name⟩

/-- The mapper for a table of names. -/
def PrincipalMapper.ofTable (table : SortedMap String String) : PrincipalMapper :=
  ⟨fun principal => .ok ((table.get? principal.name).map Principal.mk)⟩

/-- The table that an entry of a mapping chain stands for. -/
structure MappingEntry.Renames (e : MappingEntry) (table : SortedMap String String) : Prop where
  provider : e.providerId = "principal-map"
  listed : e.options.textTable "principals" = .ok table

theorem PrincipalMapper.map_ofTable (table : SortedMap String String) (p : Principal) :
    ((ofTable table).map p).map (·.getD p) = .ok (p.renamed table) := by
  have given : (ofTable table).map p = .ok ((table.get? p.name).map Principal.mk) := rfl
  rw [given, Principal.renamed]
  cases table.get? p.name <;> rfl

theorem PrincipalMapper.eq_of_principalMap {options : Options} {mapper : PrincipalMapper}
    (made : principalMap options = .ok mapper) :
    ∃ table, options.textTable "principals" = .ok table ∧ mapper = ofTable table := by
  obtain ⟨table, listed, same⟩ := bind_eq_ok.mp made
  cases same
  exact ⟨table, listed, rfl⟩

namespace Providers

theorem builtin_create_principalMapper (id : String) (options : Options) :
    builtin.principalMappers.create id options =
      if id = "principal-map" then .ofResult (PrincipalMapper.principalMap options)
      else (Registry.empty .principalMapper).create id options := by
  simp only [builtin, Registry.create_register, Registry.registerAll, List.foldl_cons, List.foldl_nil,
    Factory.ofOptions]

theorem Standard.create_principalMapper {library : Providers} (standard : library.Standard) (id : String)
    (options : Options) :
    library.principalMappers.create id options = builtin.principalMappers.create id options := by
  cases standard <;> rfl

/-- What the library makes of an entry is the mapper for the table that the entry stands for. -/
theorem Standard.principalMapper_renames {library : Providers} (standard : library.Standard) {e : MappingEntry}
    {mapper : PrincipalMapper} (made : library.principalMappers.result e.providerId e.options = .ok mapper) :
    ∃ table, e.Renames table ∧ mapper = .ofTable table := by
  have created := standard.create_principalMapper e.providerId e.options
  rw [builtin_create_principalMapper] at created
  split_ifs at created with byName
  · rw [(Registry.silent_of_create created).2] at made
    obtain ⟨table, listed, rfl⟩ := PrincipalMapper.eq_of_principalMap made
    exact ⟨table, ⟨byName, listed⟩, rfl⟩
  · rw [Registry.result, created] at made
    cases made

end Providers

/-- What a table lists for a name that no principal of the subject has does not matter. -/
theorem RoleMapper.grantByPrincipal_erase {table : SortedMap String (List String)} {subject : Subject} {name : String}
    (absent : ∀ p ∈ subject.principals, p.name ≠ name) (roles : RoleGroup) :
    grantByPrincipal (table.erase name) subject roles = grantByPrincipal table subject roles := by
  unfold grantByPrincipal
  refine List.foldl_ext _ _ _ fun g p member => ?_
  rw [SortedMap.get?_erase_of_ne table (absent p member).symm]

section Replaced

variable {caller new : Principal} {rest : List Principal}

theorem count_replaced {p : Principal} (once : (caller :: rest).count p ≤ 1) :
    (new :: rest.filter (· ≠ new)).count p ≤ 1 := by
  by_cases here : p = new
  · have gone : new ∉ rest.filter (· ≠ new) := fun member => by simp at member
    rw [here, List.count_cons_self, List.count_eq_zero_of_not_mem gone]
  · have fewer : (rest.filter (· ≠ new)).count p ≤ rest.count p := List.filter_sublist.count_le p
    rw [List.count_cons_of_ne (Ne.symm here)]
    exact fewer.trans ((List.count_le_count_cons).trans once)

/-- The principals other than the two callers are the same, in the same order. -/
theorem others_replaced :
    (new :: rest.filter (· ≠ new)).filter (fun p => p ≠ caller ∧ p ≠ new) =
      (caller :: rest).filter fun p => p ≠ caller ∧ p ≠ new := by
  rw [List.filter_cons_of_neg (by simp), List.filter_cons_of_neg (by simp), List.filter_filter]
  refine List.filter_congr fun p _ => ?_
  simp

theorem not_mem_replaced (differs : new ≠ caller) (nodup : (caller :: rest).Nodup) :
    caller ∉ new :: rest.filter (· ≠ new) := by
  intro member
  rcases List.mem_cons.mp member with same | inside
  · exact differs same.symm
  · exact (List.nodup_cons.mp nodup).1 (List.mem_filter.mp inside).1

end Replaced

namespace Mapping

section Chain

variable {tables : List (SortedMap String String)} {mapping : Mapping}
  (chain : mapping.principalMappers = tables.map PrincipalMapper.ofTable)

include chain

/-- A caller goes through the tables one after another. -/
theorem mapCaller_of_tables (caller : Principal) :
    mapping.mapCaller caller = .ok (tables.foldl Principal.renamed caller) := by
  unfold mapCaller
  rw [chain]
  clear chain
  induction tables generalizing caller with
  | nil => rfl
  | cons table rest ih =>
    rw [List.map_cons, List.foldlM_cons, PrincipalMapper.map_ofTable]
    exact ih (caller.renamed table)

theorem mapSubject_of_tables (caller : Principal) (rest : List Principal) (credentials : SortedMap String String) :
    mapping.mapSubject ⟨caller :: rest, credentials⟩ = .ok
      (if tables.foldl Principal.renamed caller = caller then ⟨caller :: rest, credentials⟩
        else ⟨tables.foldl Principal.renamed caller ::
          rest.filter (· ≠ tables.foldl Principal.renamed caller), credentials⟩) := by
  have run : mapping.mapSubject ⟨caller :: rest, credentials⟩ = (do
      let mapped ← mapping.mapCaller caller
      pure (if mapped = caller then ⟨caller :: rest, credentials⟩
        else Subject.replaceCaller ⟨caller :: rest, credentials⟩ mapped)) := rfl
  rw [run, mapCaller_of_tables chain]
  change Except.ok _ = _
  split_ifs with same
  · rfl
  · have changes : Subject.caller ⟨caller :: rest, credentials⟩ ≠ some (tables.foldl Principal.renamed caller) :=
      fun kept => same (Option.some.inj kept).symm
    rw [Subject.replaceCaller_of_ne changes]
    rfl

end Chain

theorem principalMappers_of_build {config : DomainConfig} {roleMappers : Registry RoleMapper}
    {principalMappers : Registry PrincipalMapper} {trail : Trail} {mapping : Mapping}
    (steady : ∀ e ∈ config.principalMapping, principalMappers.Steady e.providerId e.options)
    (built : ((build config roleMappers principalMappers).run trail).1 = .ok mapping) :
    config.principalMapping.mapM (fun e => principalMappers.result e.providerId e.options) =
      .ok mapping.principalMappers := by
  obtain ⟨roles, _, later⟩ := Fallible.run_bind_eq_ok built
  obtain ⟨principals, made, same⟩ := Fallible.run_bind_eq_ok later
  cases same
  exact (Fallible.gives_mapM steady _).symm.trans made

/-- Mapping a subject renames its caller through the tables and changes nothing else. It always succeeds. A caller that
comes back to the first name leaves the subject as it is; otherwise the new one stands in the first place and nowhere
else. The other principals stay in order, none is repeated that was not before, and the credentials stay. If no
principal was repeated, a caller that is renamed is gone, so that the roles listed for that name are not granted. Every
chain that the library builds is of this kind. -/
theorem mapSubject_renames_caller :
    (∀ (tables : List (SortedMap String String)) (mapping : Mapping),
      mapping.principalMappers = tables.map PrincipalMapper.ofTable →
      (∀ credentials, mapping.mapSubject ⟨[], credentials⟩ = .ok ⟨[], credentials⟩) ∧
      ∀ (caller new : Principal) (rest : List Principal) (credentials : SortedMap String String),
        new = tables.foldl Principal.renamed caller →
        ∃ mapped, mapping.mapSubject ⟨caller :: rest, credentials⟩ = .ok mapped ∧
          mapped.credentials = credentials ∧
          (new = caller → mapped = ⟨caller :: rest, credentials⟩) ∧
          (new ≠ caller → mapped.principals = new :: rest.filter (· ≠ new)) ∧
          (∀ p, (caller :: rest).count p ≤ 1 → mapped.principals.count p ≤ 1) ∧
          mapped.principals.filter (fun p => p ≠ caller ∧ p ≠ new) =
            (caller :: rest).filter (fun p => p ≠ caller ∧ p ≠ new) ∧
          (new ≠ caller → (caller :: rest).Nodup → caller ∉ mapped.principals ∧
            ∀ options mapper, RoleMapper.principalRoles options = .ok mapper →
              ∃ table, options.listTable "principals" = .ok table ∧
                ∀ roles, mapper.map mapped roles =
                  .ok (RoleMapper.grantByPrincipal (table.erase caller.name) mapped roles))) ∧
    (∀ (config : DomainConfig) (providers library : Providers) (trail : Trail) (mapping : Mapping), library.Standard →
      (∀ e ∈ config.principalMapping,
        providers.principalMappers.create e.providerId = library.principalMappers.create e.providerId) →
      ((build config providers.roleMappers providers.principalMappers).run trail).1 = .ok mapping →
      ∃ tables, List.Forall₂ MappingEntry.Renames config.principalMapping tables ∧
        mapping.principalMappers = tables.map PrincipalMapper.ofTable) := by
  refine ⟨fun tables mapping chain => ⟨fun _ => rfl, fun caller new rest credentials renamed => ?_⟩,
    fun config providers library trail mapping standard drawn built => ?_⟩
  · have run := mapSubject_of_tables chain caller rest credentials
    rw [← renamed] at run
    by_cases same : new = caller
    · rw [if_pos same] at run
      exact ⟨_, run, rfl, fun _ => rfl, fun differs => absurd same differs, fun _ once => once, rfl,
        fun differs => absurd same differs⟩
    · rw [if_neg same] at run
      refine ⟨_, run, rfl, fun same' => absurd same' same, fun _ => rfl, fun _ => count_replaced, others_replaced,
        fun _ nodup => ?_⟩
      have gone := not_mem_replaced same nodup
      refine ⟨gone, fun options mapper made => ?_⟩
      obtain ⟨table, listed, rfl⟩ := RoleMapper.eq_of_principalRoles made
      refine ⟨table, listed, fun roles => ?_⟩
      rw [RoleMapper.grantByPrincipal_erase fun p member sameName => gone ?_]
      · rfl
      · cases p
        cases caller
        cases sameName
        exact member
  · have makes : ∀ e ∈ config.principalMapping,
        Factory.Makes (providers.principalMappers.create e.providerId) PrincipalMapper.Tabled :=
      fun e member => drawn e member ▸ standard.principalMappers e.providerId
    have traversed := principalMappers_of_build
      (fun e member => (Registry.silent_of_makes (makes e member) e.options).steady) built
    have pairs := (List.forall₂_and_left _ _).mpr ⟨fun e member => member, mapM_eq_ok.mp traversed⟩
    refine exists_map_of_forall₂ (pairs.imp fun e mapper ⟨member, made⟩ => standard.principalMapper_renames ?_)
    rw [Registry.result, drawn e member] at made
    exact made

/-- The caller is renamed twice, to one of the other principals, who then stands in the first place only. The role of
the old name is not granted. A caller of the last name is renamed, too, but comes back to it, and keeps the second
entry. -/
theorem mapSubject_renames_caller_twice :
    let first := Options.empty.withValue "principals" (.obj [("ann", .str "desk"), ("bob", .str "desk")])
    let second := Options.empty.withValue "principals" (.obj [("desk", .str "bob")])
    let config := { DomainConfig.ofName "ledger" with
      principalMapping := [⟨"principal-map", first⟩, ⟨"principal-map", second⟩] }
    let tables : List (SortedMap String String) :=
      [.ofList [("ann", "desk"), ("bob", "desk")], .ofList [("desk", "bob")]]
    let mapping : Mapping := ⟨[], tables.map PrincipalMapper.ofTable⟩
    let token : SortedMap String String := .ofList [("token", "7")]
    let grants := Options.empty.withValue "principals"
      (.obj [("ann", .arr [.str "clerk"]), ("bob", .arr [.str "auditor"])])
    ∃ mapper, RoleMapper.principalRoles grants = .ok mapper ∧
      ((build config Providers.builtin.roleMappers Providers.builtin.principalMappers).run .empty).1 = .ok mapping ∧
      (∃ tables', List.Forall₂ MappingEntry.Renames config.principalMapping tables' ∧
        mapping.principalMappers = tables'.map PrincipalMapper.ofTable) ∧
      mapping.mapSubject ⟨[⟨"ann"⟩, ⟨"cid"⟩, ⟨"bob"⟩], token⟩ = .ok ⟨[⟨"bob"⟩, ⟨"cid"⟩], token⟩ ∧
      mapper.map ⟨[⟨"bob"⟩, ⟨"cid"⟩], token⟩ (.empty "Roles") = .ok ⟨"Roles", [.named "auditor"]⟩ ∧
      mapping.mapSubject ⟨[⟨"bob"⟩, ⟨"cid"⟩, ⟨"bob"⟩], token⟩ = .ok ⟨[⟨"bob"⟩, ⟨"cid"⟩, ⟨"bob"⟩], token⟩ := by
  intro first second config tables mapping token grants
  have listedFirst : first.textTable "principals" = .ok (.ofList [("ann", "desk"), ("bob", "desk")]) := by
    decide +kernel
  have listedSecond : second.textTable "principals" = .ok (.ofList [("desk", "bob")]) := by decide +kernel
  have granted : grants.listTable "principals" = .ok (.ofList [("ann", ["clerk"]), ("bob", ["auditor"])]) := by
    decide +kernel
  have createdFirst : Providers.builtin.principalMappers.create "principal-map" first =
      .ofResult (.ok (.ofTable (.ofList [("ann", "desk"), ("bob", "desk")]))) := by
    rw [Providers.builtin_create_principalMapper, if_pos rfl, PrincipalMapper.principalMap, listedFirst]
    rfl
  have createdSecond : Providers.builtin.principalMappers.create "principal-map" second =
      .ofResult (.ok (.ofTable (.ofList [("desk", "bob")]))) := by
    rw [Providers.builtin_create_principalMapper, if_pos rfl, PrincipalMapper.principalMap, listedSecond]
    rfl
  have built : ((build config Providers.builtin.roleMappers Providers.builtin.principalMappers).run .empty).1 =
      .ok mapping := by
    simp only [build, config, DomainConfig.ofName, List.mapM_cons, List.mapM_nil, createdFirst, createdSecond]
    rfl
  obtain ⟨mapper, made⟩ : ∃ mapper, RoleMapper.principalRoles grants = .ok mapper := by
    rw [RoleMapper.principalRoles, granted]
    exact ⟨_, rfl⟩
  obtain ⟨maps, chains⟩ := mapSubject_renames_caller
  obtain ⟨_, renames⟩ := maps tables mapping rfl
  obtain ⟨away, runAway, credentials, _, principals, _, _, gone⟩ :=
    renames ⟨"ann"⟩ ⟨"bob"⟩ [⟨"cid"⟩, ⟨"bob"⟩] token (by decide)
  obtain ⟨back, runBack, _, kept, _⟩ := renames ⟨"bob"⟩ ⟨"bob"⟩ [⟨"cid"⟩, ⟨"bob"⟩] token (by decide)
  have subject : away = ⟨[⟨"bob"⟩, ⟨"cid"⟩], token⟩ :=
    congrArg₂ Subject.mk ((principals (by decide)).trans (by decide)) credentials
  obtain ⟨table, listed, grant⟩ := (gone (by decide) (by decide)).2 grants mapper made
  cases granted.symm.trans listed
  rw [subject] at runAway grant
  rw [kept rfl] at runBack
  refine ⟨mapper, made, built, chains config Providers.builtin .builtin .empty mapping .plain (fun _ _ => rfl) built,
    runAway, (grant _).trans ?_, runBack⟩
  rfl

end Mapping

end AccessControl
