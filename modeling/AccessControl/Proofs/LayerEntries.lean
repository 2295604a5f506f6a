import AccessControl.Proofs.BuiltinProviders
import AccessControl.Proofs.EntryReplacement

namespace AccessControl

/-- One entry for each of several modules, all with the same flag and options. -/
def entriesFor (ids : List String) (flag : ControlFlag) (options : Options) : List ModuleEntry :=
  ids.map (⟨·, flag, options⟩)

/-- Under these identifiers a registry makes what the library does. -/
def Registry.Shares (registry library : Registry Module) (ids : List String) : Prop :=
  ∀ id ∈ ids, registry.create id = library.create id

/-- Of the modules for the layers only the one for the layer of the request has an opinion, and it is the delegated
one. -/
theorem sameOpinions_delegating (bean : BeanPolicy) (acl : Option AclPolicy) (flag : ControlFlag) (options : Options) :
    SameOpinions (entriesFor ["delegating"] flag options)
      (entriesFor ("ejb" :: "web" :: acl.toList.map fun _ => "acl") flag options)
      [delegatingModule bean acl] (bean.toModule :: webModule :: acl.toList.map AclPolicy.toModule) := by
  cases acl with
  | none =>
    refine ⟨rfl, rfl, fun lookup ⟨⟨id, detail, attributes⟩, subject, roles⟩ => ?_⟩
    cases detail <;> rfl
  | some policy =>
    refine ⟨rfl, rfl, fun lookup ⟨⟨id, detail, attributes⟩, subject, roles⟩ => ?_⟩
    cases detail <;> rfl

namespace Registry

variable {registry : Registry Module} {ids : List String}

theorem Shares.result {library : Registry Module} (shares : registry.Shares library ids) {id : String}
    (member : id ∈ ids) (options : Options) : registry.result id options = library.result id options := by
  unfold Registry.result
  rw [shares id member]

/-- Entries of modules that can be built without any options are offered under all options. -/
theorem Shares.offers {library : Providers} (standard : library.Standard) (shares : registry.Shares library.modules ids)
    (buildable : ∀ id ∈ ids, isBlankText id = false ∧ ∃ module, library.modules.result id .empty = .ok module)
    {used : List String} (among : used ⊆ ids) (flag : ControlFlag) (options : Options) :
    ∀ e ∈ entriesFor used flag options, registry.Offers e := by
  intro e member
  obtain ⟨id, place, rfl⟩ := List.mem_map.mp member
  have inside : id ∈ ids := among place
  obtain ⟨named, module, built⟩ := buildable id inside
  have makes : Factory.Makes (registry.create id) Module.Layer := shares id inside ▸ standard.modules id
  refine ⟨named, contains_of_result ((shares.result inside .empty).trans built), ?_⟩
  exact (silent_of_makes makes options).steady

end Registry

section Layers

variable {registry : Registry Module} {ids : List String} {library : Providers} (standard : library.Standard)
  (shares : registry.Shares library.modules ids) (options : Options)

include standard shares

theorem Registry.Shares.result_ejb (member : "ejb" ∈ ids) :
    registry.result "ejb" options = (BeanPolicy.ofOptions options).map BeanPolicy.toModule :=
  (shares.result member options).trans (Registry.silent_of_create (standard.create_ejb options)).2

theorem Registry.Shares.result_web (member : "web" ∈ ids) : registry.result "web" options = .ok webModule :=
  (shares.result member options).trans (Registry.silent_of_create (standard.create_web options)).2

end Layers

theorem equivalent_delegating {registry : Registry Module}
    (shares : registry.Shares Providers.builtin.withAcl.modules ["delegating", "ejb", "web", "acl"])
    (flag : ControlFlag) (options : Options) :
    registry.Equivalent (entriesFor ["delegating"] flag options) (entriesFor ["ejb", "web", "acl"] flag options) := by
  have delegating : registry.result "delegating" options = (do
      let bean ← BeanPolicy.ofOptions options
      let acl ← AclPolicy.ofOptions options
      pure (delegatingModule bean (some acl))) :=
    (shares.result (by decide) options).trans (Registry.silent_of_create (Providers.withAcl_create ..)).2
  have ejb := shares.result_ejb .full options (by decide)
  have web := shares.result_web .full options (by decide)
  have acl : registry.result "acl" options = (AclPolicy.ofOptions options).map AclPolicy.toModule :=
    (shares.result (by decide) options).trans (Registry.silent_of_create (Providers.withAcl_create ..)).2
  unfold Registry.Equivalent Registry.results entriesFor
  simp only [List.map_cons, List.map_nil, List.mapM_cons, List.mapM_nil, delegating, ejb, web, acl]
  cases BeanPolicy.ofOptions options with
  | error e => exact .error e
  | ok bean =>
    cases AclPolicy.ofOptions options with
    | error e => exact .error e
    | ok acl => exact .ok (sameOpinions_delegating bean (some acl) flag options)

theorem equivalent_delegating_withoutAcl {registry : Registry Module}
    (shares : registry.Shares Providers.builtin.modules ["delegating", "ejb", "web"])
    (flag : ControlFlag) (options : Options) :
    registry.Equivalent (entriesFor ["delegating"] flag options) (entriesFor ["ejb", "web"] flag options) := by
  have delegating : registry.result "delegating" options =
      (BeanPolicy.ofOptions options).map fun bean => delegatingModule bean none :=
    (shares.result (by decide) options).trans (Registry.silent_of_create (Providers.builtin_create ..)).2
  have ejb := shares.result_ejb .plain options (by decide)
  have web := shares.result_web .plain options (by decide)
  unfold Registry.Equivalent Registry.results entriesFor
  simp only [List.map_cons, List.map_nil, List.mapM_cons, List.mapM_nil, delegating, ejb, web]
  cases BeanPolicy.ofOptions options with
  | error e => exact .error e
  | ok bean => exact .ok (sameOpinions_delegating bean none flag options)

theorem Providers.builtin_buildable : ∀ id ∈ ["delegating", "ejb", "web"],
    isBlankText id = false ∧ ∃ module, builtin.modules.result id .empty = .ok module := by
  simp only [List.forall_mem_cons]
  exact ⟨⟨by decide, _, rfl⟩, ⟨by decide, _, rfl⟩, ⟨by decide, _, rfl⟩, nofun⟩

theorem Providers.withAcl_buildable : ∀ id ∈ ["delegating", "ejb", "web", "acl"],
    isBlankText id = false ∧ ∃ module, builtin.withAcl.modules.result id .empty = .ok module := by
  simp only [List.forall_mem_cons]
  exact ⟨⟨by decide, _, rfl⟩, ⟨by decide, _, rfl⟩, ⟨by decide, _, rfl⟩, ⟨by decide, _, rfl⟩, nofun⟩

/-- A delegating entry and the entries of the modules it passes requests to are interchangeable in every place of every
chain, with any flag and any options, those that cannot be read included. Nothing is assumed of the stored lists: they
may be unreachable. -/
theorem DomainConfig.delegating_interchangeable {registry : Registry Module} {before after : List ModuleEntry}
    (steady : ∀ e ∈ before ++ after, registry.Steady e.moduleId e.options) (config : DomainConfig) (flag : ControlFlag)
    (options : Options) :
    (registry.Shares Providers.builtin.withAcl.modules ["delegating", "ejb", "web", "acl"] →
      Interchangeable registry (config.withChain (before ++ entriesFor ["delegating"] flag options ++ after))
        (config.withChain (before ++ entriesFor ["ejb", "web", "acl"] flag options ++ after))) ∧
    (registry.Shares Providers.builtin.modules ["delegating", "ejb", "web"] →
      Interchangeable registry (config.withChain (before ++ entriesFor ["delegating"] flag options ++ after))
        (config.withChain (before ++ entriesFor ["ejb", "web"] flag options ++ after))) := by
  constructor
  · intro shares
    have offers {used : List String} (among : used ⊆ ["delegating", "ejb", "web", "acl"]) :=
      shares.offers .full Providers.withAcl_buildable among flag options
    exact interchangeable_of_equivalent steady (offers (by decide)) (offers (by decide))
      (equivalent_delegating shares flag options) config
  · intro shares
    have offers {used : List String} (among : used ⊆ ["delegating", "ejb", "web"]) :=
      shares.offers .plain Providers.builtin_buildable among flag options
    exact interchangeable_of_equivalent steady (offers (by decide)) (offers (by decide))
      (equivalent_delegating_withoutAcl shares flag options) config

/-- With a store that cannot be reached, a requisite delegating entry between two optional ones makes a request fail.
Where no store is registered, the entry has no opinion about that request. The entries of its layers answer in the same
words both times. -/
theorem DomainConfig.delegating_interchangeable_offline :
    let chain := fun ids =>
      [ModuleEntry.plain "deny-all" .optional] ++ entriesFor ids .requisite .empty ++ [.plain "permit-all" .optional]
    let made := fun (library : Providers) ids =>
      Context.ofConfig ((DomainConfig.ofName "ledger").withChain (chain ids)) library.modules .keep
    let request : Request := ⟨.ofAclRequest ⟨.acl, "contract"⟩ .full, .ofCaller ⟨"ann"⟩, .empty "Roles"⟩
    let answer := fun library ids => (made library ids).map fun c =>
      ((c.authorize AclStore.unavailable.lookup request).run .empty).1.1
    let offline : Except Error Decision :=
      .error (.authorization "requisite module failed in domain 'ledger': Internal error: store offline")
    answer Providers.builtin.withAcl ["delegating"] = .ok offline ∧
      answer Providers.builtin.withAcl ["ejb", "web", "acl"] = .ok offline ∧
      answer Providers.builtin ["delegating"] = .ok (.ok .permit) ∧
      answer Providers.builtin ["ejb", "web"] = .ok (.ok .permit) := by
  intro chain made request answer offline
  have steady {library : Providers} (standard : library.Standard) :
      ∀ e ∈ [ModuleEntry.plain "deny-all" .optional] ++ [.plain "permit-all" .optional],
        library.modules.Steady e.moduleId e.options :=
    fun e _ => (Registry.silent_of_makes (standard.modules e.moduleId) e.options).steady
  have alike {library ids} (same : Alike Context.SameAnswers (made library ["delegating"]) (made library ids)) :
      answer library ["delegating"] = answer library ids := by
    refine Alike.bind_eq same fun c c' related => ?_
    exact congrArg Except.ok (related c c' .start .start AclStore.unavailable.lookup request .empty .empty)
  have stored := alike
    ((delegating_interchangeable (steady .full) (.ofName "ledger") .requisite .empty).1 (fun _ _ => rfl) .keep)
  have unstored := alike
    ((delegating_interchangeable (steady .plain) (.ofName "ledger") .requisite .empty).2 (fun _ _ => rfl) .keep)
  refine ⟨?stored, stored.symm.trans ?stored, ?unstored, unstored.symm.trans ?unstored⟩
  · decide +kernel
  · decide +kernel

end AccessControl
