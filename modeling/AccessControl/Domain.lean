import AccessControl.ControlFlag
import AccessControl.Decision
import AccessControl.Options
import AccessControl.Resource

namespace AccessControl

/-- A module in an authorization or trust chain: its identifier, its flag and its options. -/
structure ModuleEntry where
  moduleId : String
  flag : ControlFlag
  options : Options

/-- A provider in a mapping chain. -/
structure MappingEntry where
  providerId : String
  options : Options

/-- The switches of a security domain. -/
structure Settings where
  emptyChainDecision : Decision
  enforceRoleRefs : Bool
  declaredRoles : SortedSet String
  deriving DecidableEq

/-- The whole configuration of a security domain. -/
structure DomainConfig where
  name : String
  authorization : List ModuleEntry
  roleMapping : List MappingEntry
  principalMapping : List MappingEntry
  trust : List ModuleEntry
  settings : Settings

namespace ModuleEntry

def plain (moduleId : String) (flag : ControlFlag) : ModuleEntry := ⟨moduleId, flag, .empty⟩

end ModuleEntry

namespace Settings

/-- The settings of a domain that gives none: refuse when no module has an opinion, and let role checks pass. -/
def standard : Settings := ⟨.deny, false, .empty⟩

/-- The deployed role that a role check refers to. Nothing means that the name is checked as it is. Where role
references are enforced, a name without one, or one whose link is not among the declared roles, is an error; with no
declared roles every link will do. -/
def resolveRoleRef (s : Settings) (refs : List RoleRef) (roleName : String) : Except Error (Option String) :=
  let link := resolveRoleLink refs roleName
  if !s.enforceRoleRefs then .ok link
  else
    match link with
    | none => .error (.configuration s!"no security-role-ref declared for role '{roleName}'")
    | some role =>
      if !s.declaredRoles.isEmpty && !s.declaredRoles.contains role then
        .error (.configuration s!"security-role-ref '{roleName}' links to undeclared role '{role}'")
      else .ok (some role)

end Settings

namespace DomainConfig

/-- A domain without any provider. -/
def ofName (name : String) : DomainConfig := ⟨name, [], [], [], [], .standard⟩

def withModule (d : DomainConfig) (entry : ModuleEntry) : DomainConfig :=
  { d with authorization := d.authorization ++ [entry] }

/-- The identifiers of all entries, chain after chain. -/
def providerIds (d : DomainConfig) : List String :=
  d.authorization.map (·.moduleId) ++ d.trust.map (·.moduleId) ++ d.roleMapping.map (·.providerId) ++
    d.principalMapping.map (·.providerId)

/-- A domain has a name and all its entries have identifiers. Whether these are registered is checked later. -/
def validate (d : DomainConfig) : Except Error Unit :=
  if isBlankText d.name then .error (.configuration "security domain name is empty")
  else if d.providerIds.any isBlankText then
    .error (.configuration s!"security domain '{d.name}' has an entry with an empty module id")
  else .ok ()

end DomainConfig

end AccessControl
