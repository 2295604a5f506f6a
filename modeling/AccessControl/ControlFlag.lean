import AccessControl.Error
import AccessControl.Json
import AccessControl.Text

namespace AccessControl

/-- How the outcome of a module counts in its chain. -/
inductive ControlFlag
  | required | requisite | sufficient | optional
  deriving DecidableEq, Repr

namespace ControlFlag

def all : List ControlFlag := [required, requisite, sufficient, optional]

def name : ControlFlag → String
  | required => "REQUIRED"
  | requisite => "REQUISITE"
  | sufficient => "SUFFICIENT"
  | optional => "OPTIONAL"

/-- Whether a failure of the module fails the whole chain. -/
def isMandatory : ControlFlag → Bool
  | required | requisite => true
  | sufficient | optional => false

@[simp] theorem isMandatory_required : required.isMandatory = true := rfl
@[simp] theorem isMandatory_requisite : requisite.isMandatory = true := rfl
@[simp] theorem isMandatory_sufficient : sufficient.isMandatory = false := rfl
@[simp] theorem isMandatory_optional : optional.isMandatory = false := rfl

/-- Reads a name whatever its ASCII case and the blanks around it. -/
def ofText (text : String) : Except Error ControlFlag :=
  match all.find? (·.name == upperAscii (trim text)) with
  | some flag => .ok flag
  | none => .error (.configuration s!"unknown control flag '{text}'")

def toJson (flag : ControlFlag) : Json := .str flag.name

def ofJson? (j : Json) : Option ControlFlag := j.text?.bind fun text => (ofText text).toOption

end ControlFlag

end AccessControl
