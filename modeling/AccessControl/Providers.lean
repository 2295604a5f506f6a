import AccessControl.Mapping
import AccessControl.Module
import AccessControl.Trust

namespace AccessControl

/-- The registries that a security domain draws on. -/
structure Providers where
  modules : Registry Module
  roleMappers : Registry RoleMapper
  principalMappers : Registry PrincipalMapper
  trustModules : Registry TrustModule

namespace Providers

def empty : Providers := ⟨.empty .module, .empty .roleMapper, .empty .principalMapper, .empty .trustModule⟩

/-- The modules that need no stored lists. -/
def plainModules : List (String × Factory Module) :=
  [("permit-all", .ofOptions fun _ => .ok (.constant .permit)),
   ("deny-all", .ofOptions fun _ => .ok (.constant .deny)),
   ("ejb", .ofOptions fun options => (BeanPolicy.ofOptions options).map BeanPolicy.toModule),
   ("web", .ofOptions fun _ => .ok webModule)]

/-- The delegating module without a check for stored lists. -/
def delegatingWithoutAcl : Factory Module :=
  .ofOptions fun options => (BeanPolicy.ofOptions options).map fun bean => delegatingModule bean none

/-- The delegating module with all its checks. It reads the options of both configurable ones. -/
def delegatingWithAcl : Factory Module :=
  .ofOptions fun options => do
    let bean ← BeanPolicy.ofOptions options
    let acl ← AclPolicy.ofOptions options
    pure (delegatingModule bean (some acl))

def aclModule : Factory Module :=
  .ofOptions fun options => (AclPolicy.ofOptions options).map AclPolicy.toModule

/-- Every provider of the library but those that consult stored lists. -/
def builtin : Providers where
  modules := ((Registry.empty .module).registerAll plainModules).register "delegating" delegatingWithoutAcl
  roleMappers := (Registry.empty .roleMapper).registerAll
    [("principal-roles", .ofOptions RoleMapper.principalRoles), ("role-map", .ofOptions RoleMapper.roleMap)]
  principalMappers := (Registry.empty .principalMapper).registerAll
    [("principal-map", .ofOptions PrincipalMapper.principalMap)]
  trustModules := (Registry.empty .trustModule).registerAll
    [("principal-list", .ofOptions TrustModule.principalList)]

/-- Registers all modules, with those that consult stored lists. -/
def withAcl (p : Providers) : Providers :=
  { p with
    modules := (p.modules.registerAll plainModules).registerAll
      [("acl", aclModule), ("delegating", delegatingWithAcl)] }

def description (p : Providers) : String :=
  AccessControl.description "Providers"
    [("modules", p.modules.description), ("role_mappers", p.roleMappers.description),
     ("principal_mappers", p.principalMappers.description), ("trust_modules", p.trustModules.description)]

end Providers

end AccessControl
