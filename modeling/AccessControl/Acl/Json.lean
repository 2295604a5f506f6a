import AccessControl.Acl
import AccessControl.Resource.Json

namespace AccessControl

namespace AclIdentity

def toJson (i : AclIdentity) : Json := .obj [("name", .str i.name), ("type", .str i.kindWord)]

def ofJson? (j : Json) : Option AclIdentity := do
  let fields ← j.fields? ["type", "name"]
  let kind ← fields.required "type" Json.word?
  let name ← fields.required "name" Json.text?
  if kind = "user" then some (user name) else if kind = "role" then some (role name) else none

end AclIdentity

namespace AclEntry

def toJson (e : AclEntry) : Json := .obj [("identity", e.identity.toJson), ("permission", e.permission.toJson)]

def ofJson? (j : Json) : Option AclEntry := do
  let fields ← j.fields? ["identity", "permission"]
  let identity ← fields.required "identity" AclIdentity.ofJson?
  let permission ← fields.required "permission" Permission.ofJson?
  pure ⟨identity, permission⟩

end AclEntry

namespace Acl

def toJson (acl : Acl) : Json :=
  .obj [("entries", .arr (acl.entries.map AclEntry.toJson)), ("resource", acl.resource.toJson)]

/-- Reads a list as it is written, repeated identities included. -/
def ofJson? (j : Json) : Option Acl := do
  let fields ← j.fields? ["resource", "entries"]
  let resource ← fields.required "resource" ResourceId.ofJson?
  let entries ← fields.required "entries" (Json.list? AclEntry.ofJson?)
  pure ⟨resource, entries⟩

end Acl

end AccessControl
