import AccessControl.Domain
import AccessControl.Registry
import AccessControl.Subject

namespace AccessControl

/-- Changes the roles of a subject. -/
structure RoleMapper where
  map : Subject → RoleGroup → Except Error RoleGroup

/-- Gives a caller another name; nothing means that the name stays. -/
structure PrincipalMapper where
  map : Principal → Except Error (Option Principal)

namespace RoleGroup

def addNames (g : RoleGroup) (names : List String) : RoleGroup := g.addAll (names.map Role.named)

end RoleGroup

namespace RoleMapper

/-- Adds the roles that a table lists for each principal of the subject. -/
def grantByPrincipal (table : SortedMap String (List String)) (subject : Subject) (roles : RoleGroup) : RoleGroup :=
  subject.principals.foldl (fun g p => g.addNames ((table.get? p.name).getD [])) roles

/-- Adds the roles that a table lists for each role held. When the held roles are to be replaced, the result starts
empty and takes over only the names that the table does not list; nested groups are flattened. -/
def byTable (table : SortedMap String (List String)) (replace : Bool) (roles : RoleGroup) : RoleGroup :=
  roles.leafNames.keys.foldl
    (fun g name =>
      match table.get? name with
      | some targets => g.addNames targets
      | none => if replace then g.addNames [name] else g)
    (if replace then .empty roles.name else roles)

def principalRoles (options : Options) : Except Error RoleMapper := do
  let table ← options.listTable "principals"
  pure ⟨fun subject roles => .ok (grantByPrincipal table subject roles)⟩

def roleMap (options : Options) : Except Error RoleMapper := do
  let table ← options.listTable "roles"
  let replace := (← options.flag? "replace-roles").getD false
  pure ⟨fun _ roles => .ok (byTable table replace roles)⟩

end RoleMapper

namespace PrincipalMapper

def principalMap (options : Options) : Except Error PrincipalMapper := do
  let table ← options.textTable "principals"
  pure ⟨fun principal => .ok ((table.get? principal.name).map Principal.mk)⟩

end PrincipalMapper

/-- The mapping chains of a domain. -/
structure Mapping where
  roleMappers : List RoleMapper
  principalMappers : List PrincipalMapper

namespace Mapping

/-- Builds every provider of the two chains, those for roles first. -/
def build (config : DomainConfig) (roleMappers : Registry RoleMapper) (principalMappers : Registry PrincipalMapper) :
    Fallible Mapping := do
  let roles ← config.roleMapping.mapM fun e => roleMappers.create e.providerId e.options
  let principals ← config.principalMapping.mapM fun e => principalMappers.create e.providerId e.options
  pure ⟨roles, principals⟩

def isEmpty (m : Mapping) : Bool := m.roleMappers.isEmpty && m.principalMappers.isEmpty

/-- Sends a caller through the chain of principal mappers. -/
def mapCaller (m : Mapping) (caller : Principal) : Except Error Principal :=
  m.principalMappers.foldlM (fun p mapper => (mapper.map p).map (·.getD p)) caller

/-- Maps the caller of a subject. A subject whose caller keeps the name stays as it is. -/
def mapSubject (m : Mapping) (subject : Subject) : Except Error Subject :=
  match subject.caller with
  | none => .ok subject
  | some caller => do
    let mapped ← m.mapCaller caller
    pure (if mapped = caller then subject else subject.replaceCaller mapped)

/-- Sends a group of roles through the chain of role mappers. -/
def mapRoles (m : Mapping) (subject : Subject) (roles : RoleGroup) : Except Error RoleGroup :=
  m.roleMappers.foldlM (fun g mapper => mapper.map subject g) roles

def description (m : Mapping) : String :=
  AccessControl.description "MappingManager"
    [("role_mappers", toString m.roleMappers.length), ("principal_mappers", toString m.principalMappers.length)]

end Mapping

end AccessControl
