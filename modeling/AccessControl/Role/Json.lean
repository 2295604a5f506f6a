import AccessControl.Role
import AccessControl.Json

namespace AccessControl

namespace SimpleRole

/-- A missing parent is left out. -/
def toJson (r : SimpleRole) : Json :=
  .obj (("name", .str r.name) :: (r.parent.map fun p => ("parent", .str p)).toList)

/-- Reads a role without members. A missing parent is none. -/
def ofJson? (j : Json) : Option SimpleRole := do
  let fields ← j.fields? ["name", "parent"]
  let name ← fields.required "name" Json.text?
  let parent ← fields.optional "parent" Json.text?
  pure ⟨name, parent⟩

end SimpleRole

namespace Role

mutual

/-- A role is stored under the word for its shape. -/
def toJson : Role → Json
  | simple r => .obj [("simple", r.toJson)]
  | group name ms => .obj [("group", .obj [("name", .str name), ("roles", .arr (toJsons ms))])]

def toJsons : List Role → List Json
  | [] => []
  | m :: rest => toJson m :: toJsons rest

end

mutual

/-- Reads a role. A group takes its members one by one, so each one equal to an earlier one is dropped. -/
def ofJson? : Json → Option Role
  | .obj [(shape, body)] =>
    if shape = "simple" then (SimpleRole.ofJson? body).map simple
    else if shape = "group" then (groupOfJson? body).map RoleGroup.toRole
    else none
  | _ => none

/-- Reads a group from its name and its members, by their names or in this order; without members it is empty. -/
def groupOfJson? : Json → Option RoleGroup
  | .obj members => do
    let name ← Members.required members "name" Json.text?
    let roles ← rolesIn? members
    pure (RoleGroup.withRoles name roles)
  | .arr [name] => do
    let name ← name.text?
    pure (RoleGroup.empty name)
  | .arr [name, roles] => do
    let name ← name.text?
    let roles ← listOfJson? roles
    pure (RoleGroup.withRoles name roles)
  | _ => none

/-- Finds and reads the member that holds the roles. -/
def rolesIn? : List (String × Json) → Option (List Role)
  | [] => some []
  | (name, value) :: rest => if name = "roles" then listOfJson? value else rolesIn? rest

def listOfJson? : Json → Option (List Role)
  | .arr items => ofJsons? items
  | _ => none

def ofJsons? : List Json → Option (List Role)
  | [] => some []
  | item :: rest => do
    let role ← ofJson? item
    let roles ← ofJsons? rest
    pure (role :: roles)

end

end Role

namespace RoleGroup

def toJson (g : RoleGroup) : Json := .obj [("name", .str g.name), ("roles", .arr (Role.toJsons g.members))]

def ofJson? (j : Json) : Option RoleGroup := Role.groupOfJson? j

end RoleGroup

end AccessControl
