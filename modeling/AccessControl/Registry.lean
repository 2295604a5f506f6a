import AccessControl.Options
import AccessControl.Audit

namespace AccessControl

/-- Builds a provider from the options of its entry. -/
abbrev Factory (α : Type) := Options → Fallible α

/-- A factory that only looks at the options. -/
def Factory.ofOptions (build : Options → Except Error α) : Factory α := fun options => .ofResult (build options)

/-- What a registry holds factories for. -/
inductive ProviderKind
  | module | roleMapper | principalMapper | trustModule
  deriving DecidableEq, Repr

def ProviderKind.phrase : ProviderKind → String
  | module => "authorization module"
  | roleMapper => "role-mapping provider"
  | principalMapper => "principal-mapping provider"
  | trustModule => "trust module"

/-- The factories of one kind of provider, by identifier. -/
structure Registry (α : Type) where
  kind : ProviderKind
  factories : SortedMap String (Factory α)

namespace Registry

def empty (kind : ProviderKind) : Registry α := ⟨kind, .empty⟩

/-- Sets the factory of an identifier. -/
def register (r : Registry α) (id : String) (factory : Factory α) : Registry α :=
  { r with factories := r.factories.insert id factory }

def registerAll (r : Registry α) (factories : List (String × Factory α)) : Registry α :=
  factories.foldl (fun r f => r.register f.1 f.2) r

def contains (r : Registry α) (id : String) : Bool := r.factories.contains id

def ids (r : Registry α) : List String := r.factories.keys

/-- Builds the provider of an identifier. -/
def create (r : Registry α) (id : String) (options : Options) : Fallible α :=
  match r.factories.get? id with
  | none => throw (.configuration s!"unknown {r.kind.phrase} '{id}'")
  | some factory => factory options

def description (r : Registry α) : String :=
  AccessControl.description "ProviderRegistry" [("kind", quoted r.kind.phrase), ("ids", quotedList r.ids)]

end Registry

end AccessControl
