import AccessControl.Permission
import AccessControl.Role

namespace AccessControl

/-- The layer that a resource belongs to. -/
inductive ResourceKind
  | ejb | web | acl
  | custom (tag : String)
  deriving DecidableEq, Repr

namespace ResourceKind

def rank : ResourceKind → Nat
  | ejb => 0
  | web => 1
  | acl => 2
  | custom _ => 3

def tag : ResourceKind → String
  | ejb => "ejb"
  | web => "web"
  | acl => "acl"
  | custom tag => tag

/-- The three fixed layers come first; the others follow in the order of their tags. -/
instance : Ord ResourceKind := ⟨compareLex (compareOn rank) (compareOn tag)⟩

instance : Std.TransOrd ResourceKind :=
  inferInstanceAs (Std.TransCmp (compareLex (compareOn rank) (compareOn tag)))

theorem eq_of_rank_tag {a b : ResourceKind} (ranks : a.rank = b.rank) (tags : a.tag = b.tag) : a = b := by
  cases a <;> cases b <;> simp_all [rank, tag]

instance : Std.LawfulEqOrd ResourceKind where
  compare_self := Std.ReflCmp.compare_self
  eq_of_compare {a b} same := by
    obtain ⟨ranks, tags⟩ := Ordering.then_eq_eq.mp same
    exact eq_of_rank_tag (Std.LawfulEqCmp.eq_of_compare ranks) (Std.LawfulEqCmp.eq_of_compare tags)

end ResourceKind

/-- What identifies a resource: its layer and its key there. -/
structure ResourceId where
  kind : ResourceKind
  key : String
  deriving DecidableEq, Repr

namespace ResourceId

instance : Ord ResourceId := ⟨compareLex (compareOn kind) (compareOn key)⟩

instance : Std.TransOrd ResourceId :=
  inferInstanceAs (Std.TransCmp (compareLex (compareOn kind) (compareOn key)))

instance : Std.LawfulEqOrd ResourceId where
  compare_self := Std.ReflCmp.compare_self
  eq_of_compare {a b} same := by
    obtain ⟨kinds, keys⟩ := Ordering.then_eq_eq.mp same
    cases a; cases b
    rw [mk.injEq]
    exact ⟨Std.LawfulEqCmp.eq_of_compare kinds, Std.LawfulEqCmp.eq_of_compare keys⟩

def text (id : ResourceId) : String := id.kind.tag ++ ":" ++ id.key

end ResourceId

/-- Maps a role name used by a component to a role that the deployment declares. -/
structure RoleRef where
  name : String
  link : String
  description : Option String
  deriving DecidableEq, Repr

/-- The link of the first reference with a name. -/
def resolveRoleLink (refs : List RoleRef) (roleName : String) : Option String :=
  (refs.find? (·.name == roleName)).map (·.link)

/-- A component's own question whether the caller is in a role. The linked role stands in for the name once the
references have been looked up. -/
structure RoleCheck where
  roleName : String
  linkedRole : Option String
  deriving DecidableEq, Repr

/-- The role that the caller has to hold. -/
def RoleCheck.effectiveRole (check : RoleCheck) : String := check.linkedRole.getD check.roleName

/-- What a web constraint demands of the channel. -/
inductive TransportGuarantee
  | none | integral | confidential
  deriving DecidableEq, Repr

/-- The call of a method of an enterprise bean. -/
structure BeanCall where
  beanName : String
  methodName : Option String
  methodInterface : Option String
  methodRoles : RoleGroup
  unchecked : Bool
  excluded : Bool
  roleCheck : Option RoleCheck
  roleRefs : List RoleRef

/-- A request for a web resource, with the constraints that match it. -/
structure WebRequest where
  uri : String
  httpMethod : String
  requiredRoles : RoleGroup
  unchecked : Bool
  excluded : Bool
  transportGuarantee : TransportGuarantee
  secure : Bool
  roleCheck : Option RoleCheck
  roleRefs : List RoleRef

/-- What a request says beyond the identity of its resource, layer by layer. -/
inductive Detail
  | generic
  | ejb (call : BeanCall)
  | web (request : WebRequest)
  | acl (permission : Permission)

/-- A protected resource with the request made for it. -/
structure Resource where
  id : ResourceId
  detail : Detail
  attributes : SortedMap String String

/-- A call that names only the bean. -/
def BeanCall.ofBean (bean : String) : BeanCall :=
  ⟨bean, none, none, .empty "MethodRoles", false, false, none, []⟩

/-- A request without constraints. -/
def WebRequest.ofMethod (method uri : String) : WebRequest :=
  ⟨uri, method, .empty "RequiredRoles", false, false, .none, false, none, []⟩

namespace Detail

/-- The role check of a request and the references declared beside it. -/
def roleCheck? : Detail → Option (RoleCheck × List RoleRef)
  | ejb call => call.roleCheck.map fun check => (check, call.roleRefs)
  | web request => request.roleCheck.map fun check => (check, request.roleRefs)
  | generic | acl _ => none

/-- Records the linked role in the role check, if there is one. -/
def link (linkedRole : String) : Detail → Detail
  | ejb call => ejb { call with roleCheck := call.roleCheck.map fun c => { c with linkedRole := some linkedRole } }
  | web req => web { req with roleCheck := req.roleCheck.map fun c => { c with linkedRole := some linkedRole } }
  | generic => generic
  | acl permission => acl permission

end Detail

namespace Resource

def generic (id : ResourceId) : Resource := ⟨id, .generic, .empty⟩

/-- A bean call is keyed by the bean and, after a hash sign, the method. -/
def ofBeanCall (call : BeanCall) : Resource :=
  let key := match call.methodName with
    | some method => call.beanName ++ "#" ++ method
    | none => call.beanName
  ⟨⟨.ejb, key⟩, .ejb call, .empty⟩

def ofWebRequest (request : WebRequest) : Resource := ⟨⟨.web, request.uri⟩, .web request, .empty⟩

def ofAclRequest (id : ResourceId) (permission : Permission) : Resource := ⟨id, .acl permission, .empty⟩

def withAttribute (r : Resource) (key value : String) : Resource :=
  { r with attributes := r.attributes.insert key value }

def roleCheck? (r : Resource) : Option (RoleCheck × List RoleRef) := r.detail.roleCheck?

def linkRole (r : Resource) (linkedRole : String) : Resource := { r with detail := r.detail.link linkedRole }

/-- Resources are equal when their identities are, whatever is asked of them. -/
instance : BEq Resource := ⟨fun a b => a.id == b.id⟩

def text (r : Resource) : String := r.id.text

end Resource

end AccessControl
