import AccessControl.Json

namespace AccessControl

/-- An authenticated name. -/
structure Principal where
  name : String
  deriving DecidableEq, Repr

/-- Who asks: principals in the order in which they were added, and credentials that no check looks into. The first
principal is the caller. -/
structure Subject where
  principals : List Principal
  credentials : SortedMap String String
  deriving DecidableEq

namespace Subject

/-- A subject that has not been authenticated. -/
def anonymous : Subject := ⟨[], .empty⟩

def ofCaller (caller : Principal) : Subject := ⟨[caller], .empty⟩

def caller (s : Subject) : Option Principal := s.principals.head?

def isAnonymous (s : Subject) : Bool := s.principals.isEmpty

def hasPrincipal (s : Subject) (name : String) : Bool := s.principals.any (·.name == name)

def credential (s : Subject) (name : String) : Option String := s.credentials.get? name

/-- Appends a principal that is not there yet. -/
def withPrincipal (s : Subject) (p : Principal) : Subject :=
  if p ∈ s.principals then s else { s with principals := s.principals ++ [p] }

def withCredential (s : Subject) (name value : String) : Subject :=
  { s with credentials := s.credentials.insert name value }

/-- Puts a principal in the place of the caller. Its other occurrences go; when none remains to be replaced it
becomes the only principal. -/
def replaceCaller (s : Subject) (caller : Principal) : Subject :=
  if s.caller = some caller then s
  else { s with principals := caller :: (s.principals.filter (· ≠ caller)).drop 1 }

end Subject

namespace Principal

def toJson (p : Principal) : Json := .obj [("name", .str p.name)]

def ofJson? (j : Json) : Option Principal := do
  let fields ← j.fields? ["name"]
  let name ← fields.required "name" Json.text?
  pure ⟨name⟩

end Principal

namespace Subject

def toJson (s : Subject) : Json :=
  .obj [("credentials", Json.ofTexts s.credentials), ("principals", .arr (s.principals.map Principal.toJson))]

/-- Reads a subject. Repeated principals are kept. -/
def ofJson? (j : Json) : Option Subject := do
  let fields ← j.fields? ["principals", "credentials"]
  let principals ← fields.required "principals" (Json.list? Principal.ofJson?)
  let credentials ← fields.orElse "credentials" .empty Json.texts?
  pure ⟨principals, credentials⟩

end Subject

end AccessControl
