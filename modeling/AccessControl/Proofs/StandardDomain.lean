import AccessControl.Proofs.BuiltinProviders
import AccessControl.Proofs.TrustRun

namespace AccessControl

/-- The chains of a domain mean the same with these providers as with the library. Other factories may stand beside
those of the library, and nothing is said about trust. -/
structure DomainConfig.Draws (config : DomainConfig) (providers library : Providers) : Prop where
  modules : ∀ e ∈ config.authorization, providers.modules.create e.moduleId = library.modules.create e.moduleId
  roleMappers : ∀ e ∈ config.roleMapping,
    providers.roleMappers.create e.providerId = library.roleMappers.create e.providerId
  principalMappers : ∀ e ∈ config.principalMapping,
    providers.principalMappers.create e.providerId = library.principalMappers.create e.providerId

namespace DomainConfig.Draws

variable {config : DomainConfig} {providers library : Providers} (draws : config.Draws providers library)
  (standard : library.Standard)

include draws standard

theorem makes_module {e : ModuleEntry} (member : e ∈ config.authorization) :
    Factory.Makes (providers.modules.create e.moduleId) Module.Layer :=
  draws.modules e member ▸ standard.modules e.moduleId

theorem makes_roleMapper {e : MappingEntry} (member : e ∈ config.roleMapping) :
    Factory.Makes (providers.roleMappers.create e.providerId) RoleMapper.Tabled :=
  draws.roleMappers e member ▸ standard.roleMappers e.providerId

theorem makes_principalMapper {e : MappingEntry} (member : e ∈ config.principalMapping) :
    Factory.Makes (providers.principalMappers.create e.providerId) PrincipalMapper.Tabled :=
  draws.principalMappers e member ▸ standard.principalMappers e.providerId

theorem steady {sink : AuditSink} {m : Manager} (made : Manager.ofConfig config providers sink = .ok m) : m.Steady := by
  obtain ⟨_, rfl⟩ := Manager.ofConfig_eq_ok.mp made
  refine ⟨fun e member => ?_, fun e member => ?_, fun e member => ?_⟩
  · exact (Registry.silent_of_makes (draws.makes_module standard member) e.options).steady
  · exact (Registry.silent_of_makes (draws.makes_roleMapper standard member) e.options).steady
  · exact (Registry.silent_of_makes (draws.makes_principalMapper standard member) e.options).steady

theorem layers {modules : List Module} (built : providers.modules.results config.authorization = .ok modules) :
    ∀ module ∈ modules, module.Layer :=
  forall_mem_of_mapM (fun _ member _ => Registry.result_of_makes (draws.makes_module standard member)) built

theorem tabled {mapping : Mapping} (built : Mapping.result config providers = .ok mapping) :
    (∀ mapper ∈ mapping.roleMappers, mapper.Tabled) ∧ ∀ mapper ∈ mapping.principalMappers, mapper.Tabled := by
  obtain ⟨roles, builtRoles, built⟩ := bind_eq_ok.mp built
  obtain ⟨principals, builtPrincipals, same⟩ := bind_eq_ok.mp built
  cases same
  constructor
  · exact forall_mem_of_mapM
      (fun _ member _ => Registry.result_of_makes (draws.makes_roleMapper standard member)) builtRoles
  · exact forall_mem_of_mapM
      (fun _ member _ => Registry.result_of_makes (draws.makes_principalMapper standard member)) builtPrincipals

theorem failsOnly_mapping : FailsOnly .configuration (Mapping.result config providers) := by
  refine .bind (failsOnly_mapM fun e member => ?_) fun _ => .bind (failsOnly_mapM fun e member => ?_) fun _ => ?_
  · exact Registry.failsOnly_of_makes (draws.makes_roleMapper standard member) e.options
  · exact Registry.failsOnly_of_makes (draws.makes_principalMapper standard member) e.options
  · exact failsOnly_ok _

end DomainConfig.Draws

/-- The trust chain, too, means the same with these providers as with the library. -/
structure DomainConfig.DrawsAll (config : DomainConfig) (providers library : Providers) : Prop
    extends config.Draws providers library where
  trustModules : ∀ e ∈ config.trust,
    providers.trustModules.create e.moduleId = library.trustModules.create e.moduleId

namespace DomainConfig.DrawsAll

variable {config : DomainConfig} {providers library : Providers} (draws : config.DrawsAll providers library)
  (standard : library.Standard)

include draws standard

theorem makes_trustModule {e : ModuleEntry} (member : e ∈ config.trust) :
    Factory.Makes (providers.trustModules.create e.moduleId) TrustModule.Listed :=
  draws.trustModules e member ▸ standard.trustModules e.moduleId

theorem listed {trust : TrustContext}
    (built : TrustContext.result config.name config.trust providers.trustModules = .ok trust) :
    ∀ step ∈ trust.steps, step.module.Listed := by
  obtain ⟨steps, traversed, same⟩ := bind_eq_ok.mp built
  cases same
  refine forall_mem_of_mapM (fun e member step made => ?_) traversed
  obtain ⟨module, given, same⟩ := bind_eq_ok.mp made
  cases same
  exact Registry.result_of_makes (draws.makes_trustModule standard member) given

theorem allSteady {sink : AuditSink} {m : Manager} (made : Manager.ofConfig config providers sink = .ok m) :
    m.AllSteady := by
  refine ⟨draws.steady standard made, ?_⟩
  obtain ⟨_, rfl⟩ := Manager.ofConfig_eq_ok.mp made
  exact fun e member => (Registry.silent_of_makes (draws.makes_trustModule standard member) e.options).steady

end DomainConfig.DrawsAll

end AccessControl
