import AccessControl.Acl.Store
import AccessControl.Options
import AccessControl.Resource
import AccessControl.Subject

namespace AccessControl

/-- A question put to a chain: may this subject, who holds these roles, do what is asked of the resource. -/
structure Request where
  resource : Resource
  subject : Subject
  roles : RoleGroup

/-- An authorization module. Its answer may depend on the access-control lists stored at the time of the request.
Besides the answer it may write lines each time it is asked. -/
structure Module where
  answer : AclLookup → Request → Outcome
  lines : Request → List String

namespace Module

/-- A module that only answers. -/
def ofAnswer (answer : AclLookup → Request → Outcome) : Module := ⟨answer, fun _ => []⟩

/-- A module that looks at the request alone. -/
def ofRequest (answer : Request → Outcome) : Module := ofAnswer fun _ request => answer request

/-- A module that gives one answer to every request. -/
def constant (outcome : Outcome) : Module := ofRequest fun _ => outcome

end Module

/-- The settings of the module for bean calls. -/
structure BeanPolicy where
  permitUnspecified : Bool
  deriving DecidableEq, Repr

namespace BeanPolicy

def optionName : String := "unspecified-method"

/-- The option names the answer for methods that declare no roles; without it they are refused. -/
def ofOptions (options : Options) : Except Error BeanPolicy := do
  match ← options.text? optionName with
  | none => pure ⟨false⟩
  | some word =>
    if sameIgnoringCase word "deny" then pure ⟨false⟩
    else if sameIgnoringCase word "permit" then pure ⟨true⟩
    else throw (.configuration s!"option '{optionName}' must be 'deny' or 'permit', got '{word}'")

/-- A role check is answered from the caller's roles alone. Otherwise an excluded method is refused, an unchecked one
permitted, and any other asks for one of its roles. -/
def decide (policy : BeanPolicy) (call : BeanCall) (roles : RoleGroup) : Outcome :=
  match call.roleCheck with
  | some check => .permitIf (roles.holds check.effectiveRole)
  | none =>
    if call.excluded then .deny
    else if call.unchecked then .permit
    else if call.methodRoles.isEmpty then .permitIf policy.permitUnspecified
    else .permitIf (roles.holdsAny call.methodRoles)

def toModule (policy : BeanPolicy) : Module := .ofRequest fun request =>
  match request.resource.detail with
  | .ejb call => policy.decide call request.roles
  | _ => .abstain

end BeanPolicy

namespace WebRequest

/-- A role check is answered from the caller's roles alone. Otherwise the constraint may exclude all access, the
channel must satisfy the guarantee, an unchecked request is permitted, and any other asks for one of the required
roles; without required roles it is refused. -/
def decide (request : WebRequest) (roles : RoleGroup) : Outcome :=
  match request.roleCheck with
  | some check => .permitIf (roles.holds check.effectiveRole)
  | none =>
    if request.excluded then .deny
    else if request.transportGuarantee ≠ .none && !request.secure then .deny
    else if request.unchecked then .permit
    else if request.requiredRoles.isEmpty then .deny
    else .permitIf (roles.holdsAny request.requiredRoles)

end WebRequest

def webModule : Module := .ofRequest fun request =>
  match request.resource.detail with
  | .web web => web.decide request.roles
  | _ => .abstain

/-- The settings of the module for access-control lists. -/
structure AclPolicy where
  checkRoles : Bool
  deriving DecidableEq, Repr

namespace AclPolicy

def optionName : String := "check-roles"

/-- Role entries count unless the option says otherwise. -/
def ofOptions (options : Options) : Except Error AclPolicy := do
  pure ⟨(← options.flag? optionName).getD true⟩

/-- An anonymous subject is refused. Otherwise the stored lists decide about the caller; a failing store makes the
module fail. -/
def decide (policy : AclPolicy) (lookup : AclLookup) (resource : ResourceId) (requested : Permission)
    (subject : Subject) (roles : RoleGroup) : Outcome :=
  match subject.caller with
  | none => .deny
  | some caller =>
    .ofResult (lookup.decide resource caller.name (if policy.checkRoles then some roles else none) requested)

def toModule (policy : AclPolicy) : Module := .ofAnswer fun lookup request =>
  match request.resource.detail with
  | .acl requested => policy.decide lookup request.resource.id requested request.subject request.roles
  | _ => .abstain

end AclPolicy

/-- A module that passes each request to the check for its layer. It abstains where there is none: on generic
resources, and on access-control lists when no such check is configured. -/
def delegatingModule (bean : BeanPolicy) (acl : Option AclPolicy) : Module := .ofAnswer fun lookup request =>
  match request.resource.detail with
  | .ejb call => bean.decide call request.roles
  | .web web => web.decide request.roles
  | .acl requested =>
    match acl with
    | some policy => policy.decide lookup request.resource.id requested request.subject request.roles
    | none => .abstain
  | .generic => .abstain

end AccessControl
