import AccessControl.Domain

namespace AccessControl

/-- How the records of a configuration may be written. -/
structure RecordStyle where
  /-- Whether an array that stands for a record may hold more items than the record has fields. -/
  surplus : Bool
  /-- What may stand as the content of a choice that has none. -/
  isEmptyContent : Json → Bool

namespace RecordStyle

/-- Arrays that stand for records hold fields only, and `null` is the content of a choice that has none. -/
def json : RecordStyle := ⟨false, Json.isNull⟩

/-- Arrays may go on after the fields, and an empty table or array is the content of a choice that has none. -/
def document : RecordStyle where
  surplus := true
  isEmptyContent
    | .obj [] | .arr [] => true
    | _ => false

/-- The fields of a record with the given field names. -/
def fields? (style : RecordStyle) (names : List String) : Json → Option Members
  | .arr items => if style.surplus then some (names.zip items) else Json.fields? names (.arr items)
  | j => j.fields? names

/-- The word of a choice without content. -/
def word? (style : RecordStyle) : Json → Option String
  | .str s => some s
  | .obj [(s, content)] => if style.isEmptyContent content then some s else none
  | _ => none

end RecordStyle

namespace ModuleEntry

/-- Empty options are left out; the flag is always written. -/
def toJson (e : ModuleEntry) : Json :=
  .obj (("flag", e.flag.toJson) :: ("module", .str e.moduleId) ::
    (if e.options.isEmpty then [] else [("options", e.options.toJson)]))

def read? (style : RecordStyle) (j : Json) : Option ModuleEntry := do
  let fields ← style.fields? ["module", "flag", "options"] j
  let moduleId ← fields.required "module" Json.text?
  let flag ← fields.orElse "flag" .required ControlFlag.ofJson?
  let options ← fields.orElse "options" .empty Options.ofJson?
  pure ⟨moduleId, flag, options⟩

def ofJson? (j : Json) : Option ModuleEntry := read? .json j

end ModuleEntry

namespace MappingEntry

/-- Empty options are left out. -/
def toJson (e : MappingEntry) : Json :=
  .obj ((if e.options.isEmpty then [] else [("options", e.options.toJson)]) ++ [("provider", .str e.providerId)])

def read? (style : RecordStyle) (j : Json) : Option MappingEntry := do
  let fields ← style.fields? ["provider", "options"] j
  let providerId ← fields.required "provider" Json.text?
  let options ← fields.orElse "options" .empty Options.ofJson?
  pure ⟨providerId, options⟩

end MappingEntry

namespace Settings

/-- The declared roles are left out when there are none. -/
def toJson (s : Settings) : Json :=
  .obj ((if s.declaredRoles.isEmpty then [] else [("declared_roles", Json.strs s.declaredRoles.keys)]) ++
    [("empty_chain_decision", s.emptyChainDecision.toJson), ("enforce_role_ref_restriction", .bool s.enforceRoleRefs)])

def read? (style : RecordStyle) (j : Json) : Option Settings := do
  let fields ← style.fields? ["empty_chain_decision", "enforce_role_ref_restriction", "declared_roles"] j
  let decision ← fields.orElse "empty_chain_decision" .deny fun d => (style.word? d).bind Decision.ofStoredName?
  let enforce ← fields.orElse "enforce_role_ref_restriction" false Json.flag?
  let roles ← fields.orElse "declared_roles" [] (Json.list? Json.text?)
  pure ⟨decision, enforce, SortedSet.ofElements roles⟩

def ofJson? (j : Json) : Option Settings := read? .json j

end Settings

namespace DomainConfig

def toJson (d : DomainConfig) : Json :=
  .obj [("authorization", .arr (d.authorization.map ModuleEntry.toJson)), ("name", .str d.name),
    ("principal_mapping", .arr (d.principalMapping.map MappingEntry.toJson)),
    ("role_mapping", .arr (d.roleMapping.map MappingEntry.toJson)), ("settings", d.settings.toJson),
    ("trust", .arr (d.trust.map ModuleEntry.toJson))]

/-- Reads a domain. Every part but the name may be missing. -/
def read? (style : RecordStyle) (j : Json) : Option DomainConfig := do
  let fields ← style.fields? ["name", "authorization", "role_mapping", "principal_mapping", "trust", "settings"] j
  let name ← fields.required "name" Json.text?
  let authorization ← fields.orElse "authorization" [] (Json.list? (ModuleEntry.read? style))
  let roleMapping ← fields.orElse "role_mapping" [] (Json.list? (MappingEntry.read? style))
  let principalMapping ← fields.orElse "principal_mapping" [] (Json.list? (MappingEntry.read? style))
  let trust ← fields.orElse "trust" [] (Json.list? (ModuleEntry.read? style))
  let settings ← fields.orElse "settings" .standard (Settings.read? style)
  pure ⟨name, authorization, roleMapping, principalMapping, trust, settings⟩

def ofJson? (j : Json) : Option DomainConfig := read? .json j

end DomainConfig

end AccessControl
