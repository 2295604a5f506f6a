namespace AccessControl.Toml

/-- Reads something from the front of a text, or fails. -/
abbrev Reader := StateT (List Char) Option

def peek : Reader (Option Char) := do pure (← get).head?

/-- Takes the next character if it satisfies a test. -/
def takeIf (test : Char → Bool) : Reader Char := fun
  | [] => none
  | c :: cs => if test c then some (c, cs) else none

def takeChar (c : Char) : Reader Unit := do
  let _ ← takeIf (· == c)

/-- Takes the longest stretch of characters that satisfy a test. -/
def takeAll (test : Char → Bool) : Reader (List Char) := fun cs => some (cs.takeWhile test, cs.dropWhile test)

/-- The same, but at least one character. -/
def takeSome (test : Char → Bool) : Reader (List Char) := do
  let cs ← takeAll test
  if cs.isEmpty then failure else pure cs

def takeWord (word : String) : Reader Unit := fun cs =>
  if word.toList.isPrefixOf cs then some ((), cs.drop word.length) else none

/-- Reads something that may be missing. -/
def maybe (read : Reader α) : Reader (Option α) := (some <$> read) <|> pure none

/-- A blank within a line. -/
def isBlankChar (c : Char) : Bool := c == ' ' || c == '\t'

/-- A character that may stand in a comment: neither a line end nor a control, tabs apart. -/
def isLineChar (c : Char) : Bool := c == '\t' || (0x20 ≤ c.toNat && c.toNat != 0x7F)

/-- A character of a key that is not quoted. -/
def isBareKeyChar (c : Char) : Bool := c.isAlphanum || c == '-' || c == '_'

def skipBlanks : Reader Unit := do
  let _ ← takeAll isBlankChar

/-- A line ends with a line feed, with or without a carriage return before it. -/
def newline : Reader Unit := takeChar '\n' <|> takeWord "\r\n"

def comment : Reader Unit := do
  takeChar '#'
  let _ ← takeAll isLineChar

/-- The end of a line or of the text. -/
def lineEnd : Reader Unit := do
  match ← peek with
  | none => pure ()
  | some _ => newline

/-- Nothing but blanks and a comment may follow on a line. -/
def restOfLine : Reader Unit := do
  skipBlanks
  let _ ← maybe comment
  lineEnd

/-- Skips blanks, line ends and comments, each comment with its line end. -/
def skipLines : Nat → Reader Unit
  | 0 => failure
  | fuel + 1 => do
    skipBlanks
    match ← peek with
    | some '#' => do
      comment
      newline
      skipLines fuel
    | some '\n' | some '\r' => do
      newline
      skipLines fuel
    | _ => pure ()

/-- Skips as many lines as there are. -/
def skipAllLines : Reader Unit := do skipLines ((← get).length + 1)

end AccessControl.Toml
