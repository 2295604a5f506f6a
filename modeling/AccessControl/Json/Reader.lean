import AccessControl.Json.Number
import AccessControl.Text

namespace AccessControl
namespace Json

/-- The blanks allowed between the tokens of a JSON text. -/
def isSpace (c : Char) : Bool := c == ' ' || c == '\n' || c == '\t' || c == '\r'

def skipSpaces (cs : List Char) : List Char := cs.dropWhile isSpace

/-- The rest of a text after a given word. -/
def afterWord (word : String) (cs : List Char) : Option (List Char) :=
  if word.toList.isPrefixOf cs then some (cs.drop word.length) else none

/-- Reads so many hexadecimal digits. -/
def readHex : Nat → Nat → List Char → Option (Nat × List Char)
  | 0, n, cs => some (n, cs)
  | count + 1, n, c :: cs => (hexValue? c).bind fun d => readHex count (16 * n + d) cs
  | _ + 1, _, [] => none

/-- The character with a number, if that number is one. -/
def charOf? (n : Nat) : Option Char :=
  if h : n.isValidChar then some (Char.ofNatAux n h) else none

/-- The character named by four hexadecimal digits, or by two such groups that form a pair. -/
def readUnicodeEscape (cs : List Char) : Option (Char × List Char) := do
  let (first, cs) ← readHex 4 0 cs
  if 0xD800 ≤ first && first < 0xDC00 then
    let cs ← afterWord "\\u" cs
    let (second, cs) ← readHex 4 0 cs
    if 0xDC00 ≤ second && second < 0xE000 then
      let c ← charOf? (0x10000 + (first - 0xD800) * 0x400 + (second - 0xDC00))
      pure (c, cs)
    else none
  else
    let c ← charOf? first
    pure (c, cs)

/-- The character after a backslash, with what follows it. -/
def readEscape : List Char → Option (Char × List Char)
  | '"' :: cs => some ('"', cs)
  | '\\' :: cs => some ('\\', cs)
  | '/' :: cs => some ('/', cs)
  | 'b' :: cs => some ('\x08', cs)
  | 'f' :: cs => some ('\x0c', cs)
  | 'n' :: cs => some ('\n', cs)
  | 'r' :: cs => some ('\r', cs)
  | 't' :: cs => some ('\t', cs)
  | 'u' :: cs => readUnicodeEscape cs
  | _ => none

/-- Reads the rest of a string after its opening quote. -/
def readString : Nat → List Char → List Char → Option (String × List Char)
  | 0, _, _ => none
  | _ + 1, _, [] => none
  | fuel + 1, read, c :: cs =>
    if c == '"' then some (String.ofList read.reverse, cs)
    else if c == '\\' then (readEscape cs).bind fun (d, rest) => readString fuel (d :: read) rest
    else if c.toNat < 0x20 then none
    else readString fuel (c :: read) cs

/-- Reads the digits after an exponent mark. -/
def readExponent (cs : List Char) : Option (Int × List Char) :=
  let (negative, cs) : Bool × List Char :=
    match cs with
    | '-' :: rest => (true, rest)
    | '+' :: rest => (false, rest)
    | _ => (false, cs)
  let digits := cs.takeWhile Char.isDigit
  if digits.isEmpty then none
  else some (if negative then -(digitsValue digits : Int) else digitsValue digits, cs.dropWhile Char.isDigit)

/-- Reads the rest of a number after its digits before the point. -/
def readNumberTail (negative : Bool) (whole : List Char) : List Char → Option (Json × List Char)
  | '.' :: cs => do
    let fraction := cs.takeWhile Char.isDigit
    if fraction.isEmpty then none
    let rest := cs.dropWhile Char.isDigit
    match rest with
    | 'e' :: after | 'E' :: after =>
      let (exponent, rest) ← readExponent after
      (pointNumber negative whole fraction exponent).map (·, rest)
    | _ => (pointNumber negative whole fraction 0).map (·, rest)
  | 'e' :: cs | 'E' :: cs => do
    let (exponent, rest) ← readExponent cs
    (pointNumber negative whole [] exponent).map (·, rest)
  | cs => (wholeNumber negative whole).map (·, cs)

/-- Takes a minus from the front. Says whether there was one. -/
def splitMinus : List Char → Bool × List Char
  | '-' :: cs => (true, cs)
  | cs => (false, cs)

/-- Whether digits begin with a zero that is not the only one of them. -/
def startsWithZero : List Char → Bool
  | '0' :: _ :: _ => true
  | _ => false

/-- Reads a number. Its digits before the point have no leading zero. -/
def readNumber (cs : List Char) : Option (Json × List Char) :=
  let (negative, cs) := splitMinus cs
  let whole := cs.takeWhile Char.isDigit
  if whole.isEmpty || startsWithZero whole then none
  else readNumberTail negative whole (cs.dropWhile Char.isDigit)

mutual

/-- Reads one value. The first argument bounds the steps, the second the nesting. -/
def readValue : Nat → Nat → List Char → Option (Json × List Char)
  | 0, _, _ => none
  | fuel + 1, depth, text =>
    match skipSpaces text with
    | '\x7b' :: cs =>
      if depth = 0 then none
      else
        match skipSpaces cs with
        | '\x7d' :: rest => some (obj [], rest)
        | rest => readMembers fuel (depth - 1) [] rest
    | '[' :: cs =>
      if depth = 0 then none
      else
        match skipSpaces cs with
        | ']' :: rest => some (arr [], rest)
        | rest => readItems fuel (depth - 1) [] rest
    | '"' :: cs => (readString (cs.length + 1) [] cs).map fun (s, rest) => (str s, rest)
    | 't' :: cs => (afterWord "rue" cs).map (bool true, ·)
    | 'f' :: cs => (afterWord "alse" cs).map (bool false, ·)
    | 'n' :: cs => (afterWord "ull" cs).map (null, ·)
    | cs => readNumber cs

/-- Reads the items of an array up to its end. -/
def readItems : Nat → Nat → List Json → List Char → Option (Json × List Char)
  | 0, _, _, _ => none
  | fuel + 1, depth, read, cs =>
    (readValue fuel depth cs).bind fun (item, rest) =>
      match skipSpaces rest with
      | ',' :: rest => readItems fuel depth (item :: read) rest
      | ']' :: rest => some (arr (item :: read).reverse, rest)
      | _ => none

/-- Reads the members of an object up to its end. Of two members with one name the later one counts. -/
def readMembers : Nat → Nat → Members → List Char → Option (Json × List Char)
  | 0, _, _, _ => none
  | fuel + 1, depth, read, cs =>
    match skipSpaces cs with
    | '"' :: cs =>
      (readString (cs.length + 1) [] cs).bind fun (name, rest) =>
        match skipSpaces rest with
        | ':' :: rest =>
          (readValue fuel depth rest).bind fun (value, rest) =>
            match skipSpaces rest with
            | ',' :: rest => readMembers fuel depth (insertSorted name value read) rest
            | '\x7d' :: rest => some (obj (insertSorted name value read), rest)
            | _ => none
        | _ => none
    | _ => none

end

/-- How deep arrays and objects may be nested in a text. -/
def nestingLimit : Nat := 127

/-- The value that a whole text writes. -/
def ofText? (s : String) : Option Json :=
  let cs := s.toList
  match readValue (2 * cs.length + 2) nestingLimit cs with
  | some (value, rest) => if (skipSpaces rest).isEmpty then some value else none
  | none => none

end Json

end AccessControl
