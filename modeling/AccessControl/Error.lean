import AccessControl.Json

namespace AccessControl

/-- What kind of thing went wrong. A refused request is a decision, never an error. -/
inductive ErrorKind
  | configuration | authorization | invalid | notFound | alreadyExists | internal
  deriving DecidableEq, Repr

/-- An error is its kind and the part of its text that the kind does not fix. -/
structure Error where
  kind : ErrorKind
  message : String
  deriving DecidableEq, Repr

namespace ErrorKind

def all : List ErrorKind := [configuration, authorization, invalid, notFound, alreadyExists, internal]

/-- The short label written into audit events. -/
def label : ErrorKind → String
  | configuration => "configuration"
  | authorization => "authorization"
  | invalid => "invalid"
  | notFound => "not_found"
  | alreadyExists => "already_exists"
  | internal => "internal"

/-- The name under which an error of this kind is stored. -/
def tag : ErrorKind → String
  | configuration => "Configuration"
  | authorization => "Authorization"
  | invalid => "Invalid"
  | notFound => "NotFound"
  | alreadyExists => "AlreadyExists"
  | internal => "Internal"

/-- The words that open the text of an error of this kind. -/
def opening : ErrorKind → String
  | configuration => "Configuration error: "
  | authorization => "Authorization error: "
  | invalid => "Invalid: "
  | notFound => "Not found: "
  | alreadyExists => "Already exists: "
  | internal => "Internal error: "

def ofLabel? (text : String) : Option ErrorKind := all.find? (·.label == text)

def ofTag? (text : String) : Option ErrorKind := all.find? (·.tag == text)

end ErrorKind

namespace Error

def configuration (message : String) : Error := ⟨.configuration, message⟩
def authorization (message : String) : Error := ⟨.authorization, message⟩
def invalid (message : String) : Error := ⟨.invalid, message⟩
def notFound (message : String) : Error := ⟨.notFound, message⟩
def alreadyExists (message : String) : Error := ⟨.alreadyExists, message⟩
def internal (message : String) : Error := ⟨.internal, message⟩

def isConfiguration (e : Error) : Bool := e.kind == .configuration

/-- The text shown to people. -/
def text (e : Error) : String := e.kind.opening ++ e.message

/-- An error is stored as its message under the name of its kind. -/
def toJson (e : Error) : Json := .obj [(e.kind.tag, .obj [("message", .str e.message)])]

def ofJson? (j : Json) : Option Error := do
  let (tag, content) ← j.choice?
  let kind ← ErrorKind.ofTag? tag
  let fields ← content.fields? ["message"]
  let message ← fields.required "message" Json.text?
  pure ⟨kind, message⟩

end Error

/-- Why a file could not be read or written. -/
inductive FileFault
  | notFound | permissionDenied | alreadyExists | other
  deriving DecidableEq, Repr

/-- A missing file is a missing thing; every other file fault is internal. -/
def Error.ofFileFault (fault : FileFault) (message : String) : Error :=
  match fault with
  | .notFound => .notFound message
  | _ => .internal message

end AccessControl
