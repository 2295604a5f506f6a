import AccessControl.Resource
import AccessControl.Role.Json
import AccessControl.Permission.Stored

namespace AccessControl

namespace ResourceKind

def toJson : ResourceKind → Json
  | ejb => .str "ejb"
  | web => .str "web"
  | acl => .str "acl"
  | custom tag => .obj [("custom", .str tag)]

def ofJson? (j : Json) : Option ResourceKind :=
  match j.word? with
  | some "ejb" => some ejb
  | some "web" => some web
  | some "acl" => some acl
  | _ =>
    match j.choice? with
    | some ("custom", content) => content.text?.map custom
    | _ => none

end ResourceKind

namespace ResourceId

def toJson (id : ResourceId) : Json := .obj [("key", .str id.key), ("kind", id.kind.toJson)]

def ofJson? (j : Json) : Option ResourceId := do
  let fields ← j.fields? ["kind", "key"]
  let kind ← fields.required "kind" ResourceKind.ofJson?
  let key ← fields.required "key" Json.text?
  pure ⟨kind, key⟩

end ResourceId

namespace RoleRef

/-- A missing description is left out. -/
def toJson (r : RoleRef) : Json :=
  .obj ((r.description.map fun d => ("description", .str d)).toList ++ [("link", .str r.link), ("name", .str r.name)])

def ofJson? (j : Json) : Option RoleRef := do
  let fields ← j.fields? ["name", "link", "description"]
  let name ← fields.required "name" Json.text?
  let link ← fields.required "link" Json.text?
  let description ← fields.optional "description" Json.text?
  pure ⟨name, link, description⟩

end RoleRef

namespace RoleCheck

/-- A missing linked role is left out. -/
def toJson (c : RoleCheck) : Json :=
  .obj ((c.linkedRole.map fun l => ("linked_role", .str l)).toList ++ [("role_name", .str c.roleName)])

def ofJson? (j : Json) : Option RoleCheck := do
  let fields ← j.fields? ["role_name", "linked_role"]
  let roleName ← fields.required "role_name" Json.text?
  let linkedRole ← fields.optional "linked_role" Json.text?
  pure ⟨roleName, linkedRole⟩

end RoleCheck

namespace TransportGuarantee

def word : TransportGuarantee → String
  | none => "NONE"
  | integral => "INTEGRAL"
  | confidential => "CONFIDENTIAL"

def toJson (g : TransportGuarantee) : Json := .str g.word

def ofJson? (j : Json) : Option TransportGuarantee := do
  let word ← j.word?
  [none, integral, confidential].find? (·.word == word)

end TransportGuarantee

namespace BeanCall

def toJson (c : BeanCall) : Json :=
  .obj [("bean_name", .str c.beanName), ("excluded", .bool c.excluded),
    ("method_interface", .ofOption .str c.methodInterface), ("method_name", .ofOption .str c.methodName),
    ("method_roles", c.methodRoles.toJson), ("role_ref", .ofOption RoleCheck.toJson c.roleCheck),
    ("security_role_refs", .arr (c.roleRefs.map RoleRef.toJson)), ("unchecked", .bool c.unchecked)]

def ofJson? (j : Json) : Option BeanCall := do
  let fields ← j.fields? ["bean_name", "method_name", "method_interface", "method_roles", "unchecked", "excluded",
    "role_ref", "security_role_refs"]
  let beanName ← fields.required "bean_name" Json.text?
  let methodName ← fields.optional "method_name" Json.text?
  let methodInterface ← fields.optional "method_interface" Json.text?
  let methodRoles ← fields.required "method_roles" RoleGroup.ofJson?
  let unchecked ← fields.required "unchecked" Json.flag?
  let excluded ← fields.required "excluded" Json.flag?
  let roleCheck ← fields.optional "role_ref" RoleCheck.ofJson?
  let roleRefs ← fields.required "security_role_refs" (Json.list? RoleRef.ofJson?)
  pure ⟨beanName, methodName, methodInterface, methodRoles, unchecked, excluded, roleCheck, roleRefs⟩

end BeanCall

namespace WebRequest

def toJson (r : WebRequest) : Json :=
  .obj [("excluded", .bool r.excluded), ("http_method", .str r.httpMethod),
    ("required_roles", r.requiredRoles.toJson), ("role_ref", .ofOption RoleCheck.toJson r.roleCheck),
    ("secure", .bool r.secure), ("security_role_refs", .arr (r.roleRefs.map RoleRef.toJson)),
    ("transport_guarantee", r.transportGuarantee.toJson), ("unchecked", .bool r.unchecked), ("uri", .str r.uri)]

def ofJson? (j : Json) : Option WebRequest := do
  let fields ← j.fields? ["uri", "http_method", "required_roles", "unchecked", "excluded", "transport_guarantee",
    "secure", "role_ref", "security_role_refs"]
  let uri ← fields.required "uri" Json.text?
  let httpMethod ← fields.required "http_method" Json.text?
  let requiredRoles ← fields.required "required_roles" RoleGroup.ofJson?
  let unchecked ← fields.required "unchecked" Json.flag?
  let excluded ← fields.required "excluded" Json.flag?
  let guarantee ← fields.required "transport_guarantee" TransportGuarantee.ofJson?
  let secure ← fields.required "secure" Json.flag?
  let roleCheck ← fields.optional "role_ref" RoleCheck.ofJson?
  let roleRefs ← fields.required "security_role_refs" (Json.list? RoleRef.ofJson?)
  pure ⟨uri, httpMethod, requiredRoles, unchecked, excluded, guarantee, secure, roleCheck, roleRefs⟩

end WebRequest

namespace Detail

def toJson : Detail → Json
  | generic => .str "generic"
  | ejb call => .obj [("ejb", call.toJson)]
  | web request => .obj [("web", request.toJson)]
  | acl permission => .obj [("acl", .obj [("permission", permission.toJson)])]

def ofJson? (j : Json) : Option Detail :=
  match j.word? with
  | some "generic" => some generic
  | _ =>
    match j.choice? with
    | some ("ejb", content) => (BeanCall.ofJson? content).map ejb
    | some ("web", content) => (WebRequest.ofJson? content).map web
    | some ("acl", content) => do
      let fields ← content.fields? ["permission"]
      let permission ← fields.required "permission" Permission.ofJson?
      pure (acl permission)
    | _ => none

end Detail

namespace Resource

def toJson (r : Resource) : Json :=
  .obj [("attributes", Json.ofTexts r.attributes), ("detail", r.detail.toJson), ("id", r.id.toJson)]

/-- Reads a resource. Without a detail it is generic, and attributes may be missing. -/
def ofJson? (j : Json) : Option Resource := do
  let fields ← j.fields? ["id", "detail", "attributes"]
  let id ← fields.required "id" ResourceId.ofJson?
  let detail ← fields.orElse "detail" .generic Detail.ofJson?
  let attributes ← fields.orElse "attributes" .empty Json.texts?
  pure ⟨id, detail, attributes⟩

end Resource

end AccessControl
