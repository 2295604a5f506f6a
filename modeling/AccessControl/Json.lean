import AccessControl.Binary64
import AccessControl.SortedMap

namespace AccessControl

/-- A JSON value. Numbers without fraction or exponent stay integers. The members of an object stand in ascending
order of their names when the value was read from text. -/
inductive Json
  | null
  | bool (value : Bool)
  | int (value : Int)
  | float (value : Binary64)
  | str (value : String)
  | arr (items : List Json)
  | obj (members : List (String × Json))
  deriving Inhabited

/-- The named parts of a JSON object. -/
abbrev Members := List (String × Json)

namespace Json

def text? : Json → Option String
  | str s => some s
  | _ => none

def flag? : Json → Option Bool
  | bool b => some b
  | _ => none

def nat? : Json → Option Nat
  | int n => if 0 ≤ n then some n.toNat else none
  | _ => none

def items? : Json → Option (List Json)
  | arr items => some items
  | _ => none

def members? : Json → Option Members
  | obj members => some members
  | _ => none

def isNull : Json → Bool
  | null => true
  | _ => false

/-- The word of a choice without content: the word itself, or an object with `null` under it. -/
def word? : Json → Option String
  | str s => some s
  | obj [(s, null)] => some s
  | _ => none

/-- The word and the content of a choice with content: an object with one member. -/
def choice? : Json → Option (String × Json)
  | obj [(s, content)] => some (s, content)
  | _ => none

/-- The fields of a record with the given field names. A record is an object, or an array whose items are its first
fields in order. -/
def fields? (names : List String) : Json → Option Members
  | obj members => some members
  | arr items => if items.length ≤ names.length then some (names.zip items) else none
  | _ => none

/-- The member of an object under a name; nothing for other values. -/
def member? (j : Json) (name : String) : Option Json := j.members?.bind (·.lookup name)

def ofOption (encode : α → Json) : Option α → Json
  | none => null
  | some a => encode a

def strs (texts : List String) : Json := arr (texts.map str)

/-- An object of texts. -/
def ofTexts (m : SortedMap String String) : Json := obj (m.entries.map fun e => (e.1, str e.2))

/-- Reads every item of an array. -/
def list? (decode : Json → Option α) (j : Json) : Option (List α) := j.items?.bind (·.mapM decode)

/-- Reads `null` as nothing. -/
def orNull (decode : Json → Option α) : Json → Option (Option α)
  | null => some none
  | j => (decode j).map some

/-- Reads an object whose members are all texts. -/
def texts? (j : Json) : Option (SortedMap String String) := do
  let members ← j.members?
  let entries ← members.mapM fun m => m.2.text?.map fun s => (m.1, s)
  pure (SortedMap.ofList entries)

end Json

namespace Members

/-- Reads a member that must be there. -/
def required (members : Members) (name : String) (decode : Json → Option α) : Option α :=
  (members.lookup name).bind decode

/-- Reads a member that may be missing; a present one is read even if it is `null`. -/
def orElse (members : Members) (name : String) (default : α) (decode : Json → Option α) : Option α :=
  match members.lookup name with
  | none => some default
  | some j => decode j

/-- Reads a member that may be missing or `null`. -/
def optional (members : Members) (name : String) (decode : Json → Option α) : Option (Option α) :=
  members.orElse name none (Json.orNull decode)

end Members

end AccessControl
