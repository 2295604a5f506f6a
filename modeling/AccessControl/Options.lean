import AccessControl.Error
import AccessControl.Json.Printer
import AccessControl.Text

namespace AccessControl

/-- The options that a configuration hands to a provider. -/
structure Options where
  values : SortedMap String Json

/-- What an option was expected to be. -/
inductive OptionShape
  | text | flag | list | table | textTable
  deriving DecidableEq, Repr

def OptionShape.phrase : OptionShape → String
  | text => "a string"
  | flag => "a boolean"
  | list => "a list of strings"
  | table => "a table"
  | textTable => "a table of strings"

/-- An option of the wrong shape; the error quotes the value that is at fault. -/
def Error.optionShape (key : String) (expected : OptionShape) (found : Json) : Error :=
  .configuration s!"option '{key}' must be {expected.phrase}, found {found.text}"

/-- The items between commas, without the blanks around them and without empty ones. -/
def commaItems (text : String) : List String :=
  ((piecesOf ',' text.toList).map trimChars).filterMap fun item =>
    if item.isEmpty then none else some (String.ofList item)

namespace Options

def empty : Options := ⟨.empty⟩

instance : Inhabited Options := ⟨empty⟩

def isEmpty (o : Options) : Bool := o.values.isEmpty

def withValue (o : Options) (key : String) (value : Json) : Options := ⟨o.values.insert key value⟩

def get? (o : Options) (key : String) : Option Json := o.values.get? key

/-- The value of an option that has to be a text. -/
def text? (o : Options) (key : String) : Except Error (Option String) :=
  match o.get? key with
  | none => .ok none
  | some (.str s) => .ok (some s)
  | some other => .error (.optionShape key .text other)

/-- The value of an option that has to be true or false, or a word for one of them. -/
def flag? (o : Options) (key : String) : Except Error (Option Bool) :=
  match o.get? key with
  | none => .ok none
  | some (.bool b) => .ok (some b)
  | some (.str s) =>
    if sameIgnoringCase s "true" then .ok (some true)
    else if sameIgnoringCase s "false" then .ok (some false)
    else .error (.optionShape key .flag (.str s))
  | some other => .error (.optionShape key .flag other)

/-- Reads a list of texts. One text stands for its items between commas; an array is taken as it is. -/
def listOf (key : String) : Json → Except Error (List String)
  | .str s => .ok (commaItems s)
  | .arr items => items.mapM fun
    | .str s => .ok s
    | other => .error (.optionShape key .list other)
  | other => .error (.optionShape key .list other)

/-- The value of an option that has to be a list of texts; a missing one is empty. -/
def list (o : Options) (key : String) : Except Error (List String) :=
  match o.get? key with
  | none => .ok []
  | some value => listOf key value

/-- The value of an option that has to be a table of lists of texts; a missing one is empty. -/
def listTable (o : Options) (key : String) : Except Error (SortedMap String (List String)) :=
  match o.get? key with
  | none => .ok .empty
  | some (.obj members) => do
    let entries ← members.mapM fun m => (listOf key m.2).map fun items => (m.1, items)
    pure (SortedMap.ofList entries)
  | some other => .error (.optionShape key .table other)

/-- The value of an option that has to be a table of texts; a missing one is empty. -/
def textTable (o : Options) (key : String) : Except Error (SortedMap String String) :=
  match o.get? key with
  | none => .ok .empty
  | some (.obj members) => do
    let entries ← members.mapM fun
      | (name, .str s) => .ok (name, s)
      | (_, other) => .error (.optionShape key .textTable other)
    pure (SortedMap.ofList entries)
  | some other => .error (.optionShape key .table other)

def toJson (o : Options) : Json := .obj o.values.entries

/-- Options are any object. -/
def ofJson? (j : Json) : Option Options := j.members?.map fun members => ⟨SortedMap.ofList members⟩

end Options

end AccessControl
