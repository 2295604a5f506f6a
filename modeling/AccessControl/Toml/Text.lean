import AccessControl.Text
import AccessControl.Toml.Lexeme

namespace AccessControl.Toml

/-- Reads so many hexadecimal digits as the number of a character. -/
def readCodePoint (count : Nat) : Reader Char := fun cs => do
  let digits ← (cs.take count).mapM hexValue?
  if digits.length ≠ count then none
  let n := digits.foldl (fun n d => 16 * n + d) 0
  if valid : n.isValidChar then some (Char.ofNatAux n valid, cs.drop count) else none

/-- Reads what follows a backslash. -/
def readEscape : Reader Char := do
  match ← takeIf fun _ => true with
  | 'b' => pure '\x08'
  | 't' => pure '\t'
  | 'n' => pure '\n'
  | 'f' => pure '\x0c'
  | 'r' => pure '\r'
  | '"' => pure '"'
  | '\\' => pure '\\'
  | 'u' => readCodePoint 4
  | 'U' => readCodePoint 8
  | _ => failure

/-- Reads the rest of a text between double quotes, after the opening one. -/
def readBasic : Nat → List Char → Reader String
  | 0, _ => failure
  | fuel + 1, read => do
    let c ← takeIf isLineChar
    if c == '"' then pure (String.ofList read.reverse)
    else if c == '\\' then do
      let d ← readEscape
      readBasic fuel (d :: read)
    else readBasic fuel (c :: read)

/-- Whether a backslash ends its line. -/
def endsLine (cs : List Char) : Bool := (do skipBlanks; newline : Reader Unit).run cs |>.isSome

/-- The characters after all blanks and line ends; nothing if a carriage return stands alone there. -/
def afterGap (cs : List Char) : List Char :=
  match cs with
  | [] => []
  | '\r' :: '\n' :: rest => afterGap rest
  | c :: rest => if isBlankChar c || c == '\n' then afterGap rest else c :: rest

/-- Closes a text of several lines whose closing quotes are a run of so many. Up to two quotes before the closing
three belong to the text. -/
def closeLines (quote : Char) (run : Nat) (read : List Char) : Option String :=
  if run ≤ 5 then some (String.ofList (read.reverse ++ List.replicate (run - 3) quote)) else none

/-- Reads the rest of a text between triple quotes. With escapes, a backslash at the end of a line joins it to the
next character that is not blank. Line ends become line feeds. -/
def readLines (quote : Char) (escapes : Bool) : Nat → List Char → Reader String
  | 0, _, _ => none
  | _ + 1, _, [] => none
  | fuel + 1, read, c :: cs =>
    if c == quote then
      let run := ((c :: cs).takeWhile (· == quote)).length
      let rest := (c :: cs).drop run
      if 3 ≤ run then (closeLines quote run read).map (·, rest)
      else readLines quote escapes fuel (List.replicate run quote ++ read) rest
    else if c == '\\' && escapes then
      if endsLine cs then readLines quote escapes fuel read (afterGap cs)
      else (readEscape cs).bind fun (d, rest) => readLines quote escapes fuel (d :: read) rest
    else if c == '\n' then readLines quote escapes fuel ('\n' :: read) cs
    else if c == '\r' then
      if cs.head? = some '\n' then readLines quote escapes fuel read cs else none
    else if isLineChar c then readLines quote escapes fuel (c :: read) cs
    else none

/-- Reads a text on one line: between double quotes with escapes, or between single quotes as it is. -/
def quotedText : Reader String := do
  match ← takeIf fun _ => true with
  | '"' => readBasic ((← get).length + 1) []
  | '\'' => do
    let cs ← takeAll fun c => isLineChar c && c != '\''
    takeChar '\''
    pure (String.ofList cs)
  | _ => failure

/-- Reads a text between triple quotes. A line end directly after the opening quotes is dropped. -/
def textOfLines : Reader String := do
  let basic ← (do takeWord "\"\"\""; pure true) <|> (do takeWord "'''"; pure false)
  let _ ← maybe newline
  readLines (if basic then '"' else '\'') basic ((← get).length + 1) []

/-- Reads a text in any of its four notations. -/
def text : Reader String := fun cs =>
  if "\"\"\"".toList.isPrefixOf cs || "'''".toList.isPrefixOf cs then textOfLines cs else quotedText cs

/-- Reads one part of a key. -/
def simpleKey : Reader String := do
  match ← peek with
  | some '"' | some '\'' => quotedText
  | _ => String.ofList <$> takeSome isBareKeyChar

/-- Reads the parts of a key that follow the first one. -/
def keyTail : Nat → Reader (List String)
  | 0 => failure
  | fuel + 1 => do
    skipBlanks
    match ← peek with
    | some '.' => do
      takeChar '.'
      skipBlanks
      let part ← simpleKey
      let rest ← keyTail fuel
      pure (part :: rest)
    | _ => pure []

/-- How many levels keys and values may have, this number excluded. -/
def depthLimit : Nat := 80

/-- Reads a key, whose parts stand between dots, with the blanks around it. -/
def key : Reader (List String) := do
  skipBlanks
  let first ← simpleKey
  let rest ← keyTail depthLimit
  if depthLimit ≤ rest.length + 1 then failure else pure (first :: rest)

end AccessControl.Toml
