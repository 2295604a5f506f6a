import AccessControl.Domain.Json
import AccessControl.Toml.Document

namespace AccessControl

/-- Valid domains by their names. -/
structure Configuration where
  domains : SortedMap String DomainConfig

/-- What reading a file has found. -/
inductive FileContent
  | missing
  | directory
  | bytes (content : ByteArray)

/-- The text of a file, or why there is none. -/
def FileContent.text : FileContent → Except String String
  | missing => .error "No such file or directory (os error 2)"
  | directory => .error "Is a directory (os error 21)"
  | bytes content =>
    match String.fromUTF8? content with
    | some text => .ok text
    | none => .error "stream did not contain valid UTF-8"

/-- Finds the domains that a document lists, or says why it cannot be taken in. -/
abbrev DocumentDecoder := String → Except String (List DomainConfig)

namespace Configuration

def empty : Configuration := ⟨.empty⟩

/-- Adds a valid domain whose name is not taken. -/
def withDomain (c : Configuration) (d : DomainConfig) : Except Error Configuration := do
  d.validate
  if c.domains.contains d.name then
    throw (.configuration s!"security domain '{d.name}' is defined more than once")
  pure ⟨c.domains.insert d.name d⟩

/-- Adds domains one after another; the first that cannot be added is the error. -/
def ofDomains (domains : List DomainConfig) : Except Error Configuration := domains.foldlM withDomain empty

/-- Reads a document with a table for each domain. How documents are written is left to the decoder. -/
def ofDocument (decode : DocumentDecoder) (source : String) : Except Error Configuration :=
  match decode source with
  | .ok domains => ofDomains domains
  | .error reason => .error (.configuration s!"invalid configuration: {reason}")

/-- Reads the document that a file holds. -/
def ofFile (decode : DocumentDecoder) (path : String) (content : FileContent) : Except Error Configuration :=
  match content.text with
  | .ok source => ofDocument decode source
  | .error reason => .error (.configuration s!"failed to read configuration file {path}: {reason}")

def names (c : Configuration) : List String := c.domains.keys

/-- The configuration of a domain. -/
def domain (c : Configuration) (name : String) : Except Error DomainConfig :=
  match c.domains.get? name with
  | some d => .ok d
  | none => .error (.configuration s!"security domain '{name}' is not configured")

end Configuration

namespace Toml

/-- The domains that a document lists. Other keys of the document do not count. -/
def domainsOf? (document : Json) : Option (List DomainConfig) := do
  let members ← document.members?
  members.orElse "domain" [] (Json.list? (DomainConfig.read? .document))

/-- The decoder of documents in TOML. It does not tell what is wrong with a document. -/
def decoder : DocumentDecoder := fun source => ((read? source).bind domainsOf?).elim (.error "") .ok

end Toml

end AccessControl
