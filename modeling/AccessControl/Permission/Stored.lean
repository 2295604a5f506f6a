import AccessControl.Permission
import AccessControl.Json
import AccessControl.Text

namespace AccessControl

namespace BasicPermission

def toJson (p : BasicPermission) : Json := .str p.word

def ofJson? (j : Json) : Option BasicPermission := do
  let word ← j.word?
  all.find? (·.word == word)

end BasicPermission

namespace Permission

/-- The bits without a name. -/
def unnamed (p : Permission) : BitVec 8 := p.bits &&& 0xF0

/-- The stored form: the names in the order of their bits, then the unnamed bits as one number, between bars. -/
def storedText (p : Permission) : String :=
  let names := p.basics.map BasicPermission.storedName
  let rest := if p.unnamed = 0 then [] else ["0x" ++ hexText p.unnamed.toNat]
  " | ".intercalate (names ++ rest)

/-- The bits written as digits to base sixteen, perhaps after a plus sign. They have to fit into eight bits. -/
def ofHexDigits? (cs : List Char) : Option Permission := do
  let digits := if cs.head? = some '+' then cs.drop 1 else cs
  if digits.isEmpty then none
  let values ← digits.mapM hexValue?
  let n := values.foldl (fun n d => 16 * n + d) 0
  if n < 256 then some ⟨BitVec.ofNat 8 n⟩ else none

/-- Reads one part of the stored form. -/
def ofStoredPart? (part : List Char) : Option Permission :=
  match part with
  | '0' :: 'x' :: digits => ofHexDigits? digits
  | _ => (BasicPermission.all.find? fun p => p.storedName == String.ofList part).map BasicPermission.toPermission

/-- Reads the stored form. Blanks around the parts do not count; an empty text is the empty set. -/
def ofStoredText? (text : String) : Option Permission :=
  if isBlankText text then some empty
  else do
    let parts ← (piecesOf '|' text.toList).mapM fun part => ofStoredPart? (trimChars part)
    pure (parts.foldl union empty)

def toJson (p : Permission) : Json := .str p.storedText

def ofJson? (j : Json) : Option Permission := j.text?.bind ofStoredText?

end Permission

end AccessControl
