import AccessControl.Proofs.RoleMapping
import AccessControl.Providers

namespace AccessControl

namespace Options

theorem failsOnly_text? (o : Options) (key : String) : FailsOnly .configuration (o.text? key) := by
  unfold text?
  split
  · exact failsOnly_ok _
  · exact failsOnly_ok _
  · exact failsOnly_error rfl

theorem failsOnly_flag? (o : Options) (key : String) : FailsOnly .configuration (o.flag? key) := by
  unfold flag?
  split
  · exact failsOnly_ok _
  · exact failsOnly_ok _
  · split
    · exact failsOnly_ok _
    · split
      · exact failsOnly_ok _
      · exact failsOnly_error rfl
  · exact failsOnly_error rfl

theorem failsOnly_listOf (key : String) (value : Json) : FailsOnly .configuration (listOf key value) := by
  unfold listOf
  split
  · exact failsOnly_ok _
  · refine failsOnly_mapM fun item _ => ?_
    split
    · exact failsOnly_ok _
    · exact failsOnly_error rfl
  · exact failsOnly_error rfl

theorem failsOnly_list (o : Options) (key : String) : FailsOnly .configuration (o.list key) := by
  unfold list
  split
  · exact failsOnly_ok _
  · exact failsOnly_listOf _ _

theorem failsOnly_listTable (o : Options) (key : String) : FailsOnly .configuration (o.listTable key) := by
  unfold listTable
  split
  · exact failsOnly_ok _
  · refine .bind (failsOnly_mapM fun m _ => (failsOnly_listOf key m.2).map _) fun entries => ?_
    exact failsOnly_ok _
  · exact failsOnly_error rfl

theorem failsOnly_textTable (o : Options) (key : String) : FailsOnly .configuration (o.textTable key) := by
  unfold textTable
  split
  · exact failsOnly_ok _
  · refine .bind (failsOnly_mapM fun m _ => ?_) fun entries => failsOnly_ok _
    split
    · exact failsOnly_ok _
    · exact failsOnly_error rfl
  · exact failsOnly_error rfl

end Options

/-- The factory looks only at the options. What it makes has the property, and only a configuration error stops it. -/
def Factory.Makes {α : Type} (factory : Factory α) (p : α → Prop) : Prop :=
  ∀ options, ∃ given, factory options = .ofResult given ∧ (∀ made, given = .ok made → p made) ∧
    FailsOnly .configuration given

section Makes

variable {α : Type} {p : α → Prop}

theorem makes_ofOptions {build : Options → Except Error α} (made : ∀ options a, build options = .ok a → p a)
    (failed : ∀ options, FailsOnly .configuration (build options)) : Factory.Makes (.ofOptions build) p :=
  fun options => ⟨build options, rfl, made options, failed options⟩

theorem makes_constant {a : α} (holds : p a) : Factory.Makes (.ofOptions fun _ => .ok a) p := by
  refine makes_ofOptions ?_ fun _ => failsOnly_ok a
  rintro _ _ ⟨⟩
  exact holds

theorem makes_empty (kind : ProviderKind) (id : String) : Factory.Makes ((Registry.empty kind).create id) p :=
  fun _ => ⟨_, rfl, nofun, failsOnly_error rfl⟩

theorem makes_register {r : Registry α} {id : String} {factory : Factory α} (here : factory.Makes p)
    (others : ∀ other, Factory.Makes (r.create other) p) (other : String) :
    Factory.Makes ((r.register id factory).create other) p := by
  intro options
  rw [Registry.create_register]
  split
  · exact here options
  · exact others other options

/-- What holds of all that a registry makes still does when factories of such things are added. -/
theorem makes_registerAll {r : Registry α} {factories : List (String × Factory α)}
    (each : ∀ f ∈ factories, Factory.Makes f.2 p) (others : ∀ other, Factory.Makes (r.create other) p) :
    ∀ other, Factory.Makes ((r.registerAll factories).create other) p := by
  unfold Registry.registerAll
  induction factories generalizing r with
  | nil => exact others
  | cons f rest ih =>
    obtain ⟨here, later⟩ := List.forall_mem_cons.mp each
    exact ih later (makes_register here others)

end Makes

namespace Registry

variable {α : Type} {r : Registry α} {p : α → Prop} {id : String}

theorem silent_of_makes (makes : Factory.Makes (r.create id) p) (options : Options) : r.Silent id options := by
  obtain ⟨_, created, _⟩ := makes options
  exact (silent_of_create created).1

theorem result_of_makes (makes : Factory.Makes (r.create id) p) {options : Options} {a : α}
    (built : r.result id options = .ok a) : p a := by
  obtain ⟨_, created, holds, _⟩ := makes options
  rw [(silent_of_create created).2] at built
  exact holds a built

theorem failsOnly_of_makes (makes : Factory.Makes (r.create id) p) (options : Options) :
    FailsOnly .configuration (r.result id options) := by
  obtain ⟨_, created, _, failed⟩ := makes options
  rw [(silent_of_create created).2]
  exact failed

end Registry

/-- The modules that the library makes. -/
inductive Module.Layer : Module → Prop
  | constant (decision : Decision) : Layer (.constant decision.toOutcome)
  | bean (policy : BeanPolicy) : Layer policy.toModule
  | web : Layer webModule
  | acl (policy : AclPolicy) : Layer policy.toModule
  | delegating (bean : BeanPolicy) (acl : Option AclPolicy) : Layer (delegatingModule bean acl)

/-- The trust modules that the library makes. -/
inductive TrustModule.Listed : TrustModule → Prop
  | byName (trusted distrusted : SortedSet String) : Listed (.byName trusted distrusted)

theorem BeanPolicy.failsOnly_ofOptions (options : Options) : FailsOnly .configuration (ofOptions options) := by
  refine .bind (options.failsOnly_text? _) fun word => ?_
  split
  · exact failsOnly_ok _
  · split
    · exact failsOnly_ok _
    · split
      · exact failsOnly_ok _
      · exact failsOnly_error rfl

theorem AclPolicy.failsOnly_ofOptions (options : Options) : FailsOnly .configuration (ofOptions options) :=
  .bind (options.failsOnly_flag? _) fun _ => failsOnly_ok _

theorem RoleMapper.failsOnly_principalRoles (options : Options) : FailsOnly .configuration (principalRoles options) :=
  .bind (options.failsOnly_listTable _) fun _ => failsOnly_ok _

theorem RoleMapper.failsOnly_roleMap (options : Options) : FailsOnly .configuration (roleMap options) :=
  .bind (options.failsOnly_listTable _) fun _ => .bind (options.failsOnly_flag? _) fun _ => failsOnly_ok _

theorem PrincipalMapper.failsOnly_principalMap (options : Options) : FailsOnly .configuration (principalMap options) :=
  .bind (options.failsOnly_textTable _) fun _ => failsOnly_ok _

theorem TrustModule.listed_of_principalList {options : Options} {module : TrustModule}
    (made : principalList options = .ok module) : module.Listed := by
  obtain ⟨trusted, _, made⟩ := bind_eq_ok.mp made
  obtain ⟨distrusted, _, same⟩ := bind_eq_ok.mp made
  cases same
  exact .byName _ _

theorem TrustModule.failsOnly_principalList (options : Options) : FailsOnly .configuration (principalList options) :=
  .bind (options.failsOnly_list _) fun _ => .bind (options.failsOnly_list _) fun _ => failsOnly_ok _

namespace Providers

theorem makes_bean : Factory.Makes (.ofOptions fun options => (BeanPolicy.ofOptions options).map BeanPolicy.toModule)
    Module.Layer := by
  refine makes_ofOptions (fun options module made => ?_) fun options => (BeanPolicy.failsOnly_ofOptions options).map _
  obtain ⟨policy, _, rfl⟩ := map_eq_ok.mp made
  exact .bean policy

theorem makes_acl : aclModule.Makes Module.Layer := by
  refine makes_ofOptions (fun options module made => ?_) fun options => (AclPolicy.failsOnly_ofOptions options).map _
  obtain ⟨policy, _, rfl⟩ := map_eq_ok.mp made
  exact .acl policy

theorem makes_delegatingWithoutAcl : delegatingWithoutAcl.Makes Module.Layer := by
  refine makes_ofOptions (fun options module made => ?_) fun options => (BeanPolicy.failsOnly_ofOptions options).map _
  obtain ⟨policy, _, rfl⟩ := map_eq_ok.mp made
  exact .delegating policy none

theorem makes_delegatingWithAcl : delegatingWithAcl.Makes Module.Layer := by
  refine makes_ofOptions (fun options module made => ?_) fun options => ?_
  · obtain ⟨bean, _, made⟩ := bind_eq_ok.mp made
    obtain ⟨acl, _, same⟩ := bind_eq_ok.mp made
    cases same
    exact .delegating bean (some acl)
  · exact .bind (BeanPolicy.failsOnly_ofOptions options) fun _ =>
      .bind (AclPolicy.failsOnly_ofOptions options) fun _ => failsOnly_ok _

theorem makes_plainModules : ∀ f ∈ plainModules, Factory.Makes f.2 Module.Layer :=
  List.forall_mem_cons.mpr ⟨makes_constant (.constant .permit), List.forall_mem_cons.mpr
    ⟨makes_constant (.constant .deny), List.forall_mem_cons.mpr ⟨makes_bean, List.forall_mem_singleton.mpr
      (makes_constant .web)⟩⟩⟩

theorem builtin_create (id : String) (options : Options) :
    builtin.modules.create id options =
      if id = "delegating" then delegatingWithoutAcl options
      else if id = "web" then .ofResult (.ok webModule)
      else if id = "ejb" then .ofResult ((BeanPolicy.ofOptions options).map BeanPolicy.toModule)
      else if id = "deny-all" then .ofResult (.ok (.constant .deny))
      else if id = "permit-all" then .ofResult (.ok (.constant .permit))
      else (Registry.empty .module).create id options := by
  simp only [builtin, Registry.create_register, Registry.registerAll, plainModules, List.foldl_cons, List.foldl_nil,
    Factory.ofOptions]

theorem withAcl_create (id : String) (options : Options) :
    builtin.withAcl.modules.create id options =
      if id = "delegating" then delegatingWithAcl options
      else if id = "acl" then aclModule options
      else builtin.modules.create id options := by
  simp only [builtin_create, withAcl, Registry.create_register, Registry.registerAll, plainModules, List.foldl_cons,
    List.foldl_nil, Factory.ofOptions]
  grind

/-- The providers of the library, without or with those that consult stored lists. -/
inductive Standard : Providers → Prop
  | plain : Standard builtin
  | full : Standard builtin.withAcl

theorem makes_builtin_modules (id : String) : Factory.Makes (builtin.modules.create id) Module.Layer :=
  makes_register makes_delegatingWithoutAcl (makes_registerAll makes_plainModules (makes_empty _)) id

theorem makes_builtin_roleMappers (id : String) : Factory.Makes (builtin.roleMappers.create id) RoleMapper.Tabled := by
  refine makes_registerAll ?_ (makes_empty _) id
  refine List.forall_mem_cons.mpr ⟨?_, List.forall_mem_singleton.mpr ?_⟩
  · exact makes_ofOptions (fun _ _ => RoleMapper.tabled_of_principalRoles) RoleMapper.failsOnly_principalRoles
  · exact makes_ofOptions (fun _ _ => RoleMapper.tabled_of_roleMap) RoleMapper.failsOnly_roleMap

theorem makes_builtin_principalMappers (id : String) :
    Factory.Makes (builtin.principalMappers.create id) PrincipalMapper.Tabled := by
  refine makes_registerAll ?_ (makes_empty _) id
  refine List.forall_mem_singleton.mpr ?_
  exact makes_ofOptions (fun _ _ => PrincipalMapper.tabled_of_principalMap) PrincipalMapper.failsOnly_principalMap

theorem makes_builtin_trustModules (id : String) :
    Factory.Makes (builtin.trustModules.create id) TrustModule.Listed := by
  refine makes_registerAll ?_ (makes_empty _) id
  refine List.forall_mem_singleton.mpr ?_
  exact makes_ofOptions (fun _ _ => TrustModule.listed_of_principalList) TrustModule.failsOnly_principalList

theorem Standard.modules {library : Providers} (standard : library.Standard) (id : String) :
    Factory.Makes (library.modules.create id) Module.Layer := by
  cases standard with
  | plain => exact makes_builtin_modules id
  | full =>
    refine makes_registerAll ?_ (makes_registerAll makes_plainModules makes_builtin_modules) id
    exact List.forall_mem_cons.mpr ⟨makes_acl, List.forall_mem_singleton.mpr makes_delegatingWithAcl⟩

theorem Standard.roleMappers {library : Providers} (standard : library.Standard) (id : String) :
    Factory.Makes (library.roleMappers.create id) RoleMapper.Tabled := by
  cases standard <;> exact makes_builtin_roleMappers id

theorem Standard.principalMappers {library : Providers} (standard : library.Standard) (id : String) :
    Factory.Makes (library.principalMappers.create id) PrincipalMapper.Tabled := by
  cases standard <;> exact makes_builtin_principalMappers id

theorem Standard.trustModules {library : Providers} (standard : library.Standard) (id : String) :
    Factory.Makes (library.trustModules.create id) TrustModule.Listed := by
  cases standard <;> exact makes_builtin_trustModules id

section Modules

variable {library : Providers} (standard : library.Standard)

include standard

theorem Standard.create_ejb (options : Options) :
    library.modules.create "ejb" options = .ofResult ((BeanPolicy.ofOptions options).map BeanPolicy.toModule) := by
  cases standard with
  | plain => exact builtin_create ..
  | full => exact (withAcl_create "ejb" options).trans (builtin_create "ejb" options)

theorem Standard.create_web (options : Options) : library.modules.create "web" options = .ofResult (.ok webModule) := by
  cases standard with
  | plain => exact builtin_create ..
  | full => exact (withAcl_create "web" options).trans (builtin_create "web" options)

theorem Standard.create_delegating (options : Options) :
    library.modules.create "delegating" options = delegatingWithoutAcl options ∨
      library.modules.create "delegating" options = delegatingWithAcl options := by
  cases standard with
  | plain => exact .inl (builtin_create ..)
  | full => exact .inr (withAcl_create ..)

end Modules

end Providers

end AccessControl
