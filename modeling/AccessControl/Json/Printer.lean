import AccessControl.Json
import AccessControl.Text.Quoted
import AccessControl.Binary64.Shortest

namespace AccessControl
namespace Json

/-- Two hexadecimal digits. -/
def twoHexDigits (n : Nat) : String :=
  if n < 16 then "0" ++ hexText n else hexText n

/-- One character inside a JSON string. Only the quote, the backslash and the controls below U+0020 are escaped. -/
def charText (c : Char) : String :=
  if c == '"' then "\\\""
  else if c == '\\' then "\\\\"
  else if c == '\x08' then "\\b"
  else if c == '\t' then "\\t"
  else if c == '\n' then "\\n"
  else if c == '\x0c' then "\\f"
  else if c == '\r' then "\\r"
  else if c.toNat < 0x20 then "\\u00" ++ twoHexDigits c.toNat
  else String.singleton c

def stringText (s : String) : String := "\"" ++ String.join (s.toList.map charText) ++ "\""

mutual

/-- The compact text of a value: no blanks, members in the order in which they stand. -/
def text : Json → String
  | null => "null"
  | bool b => if b then "true" else "false"
  | int n => toString n
  | float x => if x.isFinite then x.text else "null"
  | str s => stringText s
  | arr items => "[" ++ ",".intercalate (itemTexts items) ++ "]"
  | obj members => "\x7b" ++ ",".intercalate (memberTexts members) ++ "\x7d"

def itemTexts : List Json → List String
  | [] => []
  | item :: rest => text item :: itemTexts rest

def memberTexts : List (String × Json) → List String
  | [] => []
  | (name, value) :: rest => (stringText name ++ ":" ++ text value) :: memberTexts rest

end

end Json

end AccessControl
