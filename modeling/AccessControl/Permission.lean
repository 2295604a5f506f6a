import AccessControl.Error
import AccessControl.Text

namespace AccessControl

/-- A permission with a name of its own. -/
inductive BasicPermission
  | read | update | create | delete
  deriving DecidableEq, Repr

/-- A set of permissions, one bit each. The four lowest bits have names. -/
structure Permission where
  bits : BitVec 8
  deriving DecidableEq, Repr

namespace BasicPermission

def all : List BasicPermission := [read, update, create, delete]

/-- The word used by people. -/
def word : BasicPermission → String
  | read => "read"
  | update => "update"
  | create => "create"
  | delete => "delete"

/-- The word used where permissions are stored. -/
def storedName : BasicPermission → String
  | read => "READ"
  | update => "UPDATE"
  | create => "CREATE"
  | delete => "DELETE"

def bits : BasicPermission → BitVec 8
  | read => 1
  | update => 2
  | create => 4
  | delete => 8

def toPermission (p : BasicPermission) : Permission := ⟨p.bits⟩

/-- Reads a word whatever its case and the blanks around it. The word for writing also means updating. -/
def ofText (text : String) : Except Error BasicPermission :=
  let item := lowerAscii (trim text)
  if item == "write" then .ok update
  else
    match all.find? (·.word == item) with
    | some p => .ok p
    | none => .error (.invalid s!"unknown ACL permission '{item}'")

end BasicPermission

namespace Permission

def empty : Permission := ⟨0⟩

/-- All permissions that have a name. -/
def full : Permission := ⟨15⟩

def union (a b : Permission) : Permission := ⟨a.bits ||| b.bits⟩
def inter (a b : Permission) : Permission := ⟨a.bits &&& b.bits⟩

/-- Whether every bit of the second is in the first. -/
def contains (a b : Permission) : Bool := a.bits &&& b.bits == b.bits

def isEmpty (p : Permission) : Bool := p.bits == 0

def ofBasic (ps : List BasicPermission) : Permission := ps.foldl (fun acc p => acc.union p.toPermission) empty

/-- The named permissions in the set, in the order of their bits. -/
def basics (p : Permission) : List BasicPermission := BasicPermission.all.filter fun b => p.contains b.toPermission

/-- The named permissions between commas, or a word for none of them. -/
def text (p : Permission) : String :=
  if p.basics.isEmpty then "none" else ",".intercalate (p.basics.map BasicPermission.word)

/-- The words that stand for a whole set when they are the whole text. -/
def shorthand? (text : String) : Option Permission :=
  let word := lowerAscii (trim text)
  if word == "all" then some full
  else if word == "none" || word == "" then some empty
  else none

/-- The union of the items of a list; the first item that is no permission is the error. -/
def ofItems (items : List String) : Except Error Permission :=
  items.foldlM (fun acc item => (BasicPermission.ofText item).map fun p => acc.union p.toPermission) empty

/-- Reads a shorthand or a list between commas. -/
def ofText (text : String) : Except Error Permission :=
  match shorthand? text with
  | some p => .ok p
  | none => ofItems (pieces ',' text)

end Permission

end AccessControl
