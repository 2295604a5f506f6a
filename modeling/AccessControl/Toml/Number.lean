import AccessControl.Json
import AccessControl.Text
import AccessControl.Toml.Lexeme

namespace AccessControl.Toml

/-- The digits at the front of a text; single underscores may stand between digits. -/
def digitRun (isDigit : Char → Bool) : List Char → List Char × List Char
  | '_' :: c :: rest =>
    if isDigit c then
      let (digits, rest) := digitRun isDigit rest
      (c :: digits, rest)
    else ([], '_' :: c :: rest)
  | c :: rest =>
    if isDigit c then
      let (digits, rest) := digitRun isDigit rest
      (c :: digits, rest)
    else ([], c :: rest)
  | [] => ([], [])

/-- Reads at least one digit. -/
def digits (isDigit : Char → Bool) : Reader (List Char) := do
  let first ← takeIf isDigit
  let rest ← fun cs => some (digitRun isDigit cs)
  pure (first :: rest)

/-- Reads a sign; says whether it is a minus. -/
def sign : Reader (Option Bool) := maybe ((do takeChar '-'; pure true) <|> (do takeChar '+'; pure false))

def valueOf (base : Nat) (digits : List Char) : Nat :=
  digits.foldl (fun n c => base * n + (hexValue? c).getD 0) 0

/-- Reads the digits of a whole number, which have no leading zero. -/
def wholeDigits : Reader (List Char) := do
  let ds ← digits Char.isDigit
  match ds with
  | '0' :: _ :: _ => failure
  | _ => pure ds

/-- An integer has to fit into 64 bits. -/
def integerOf (negative : Bool) (n : Nat) : Reader Json :=
  if negative then (if n ≤ Nat.pow 2 63 then pure (.int (-(n : Int))) else failure)
  else if n < Nat.pow 2 63 then pure (.int n) else failure

/-- Reads an integer to a base named by its opening; such a number has no sign. -/
def basedInteger (opening : String) (base : Nat) : Reader Json := do
  takeWord opening
  let ds ← digits fun c => (hexValue? c).any (· < base)
  integerOf false (valueOf base ds)

def integer : Reader Json :=
  basedInteger "0x" 16 <|> basedInteger "0o" 8 <|> basedInteger "0b" 2 <|> do
    let negative ← sign
    let ds ← wholeDigits
    integerOf (negative.getD false) (valueOf 10 ds)

/-- The floating-point number nearest to a decimal. Exponents far out of range need no exact arithmetic. -/
def floatOf (negative : Bool) (significand : Nat) (exponent : Int) : Binary64 :=
  let size : Int := exponent + (Nat.toDigits 10 significand).length
  if significand = 0 || size < -400 then .ofParts negative 0
  else if 400 < size then .infinity negative
  else .ofRatio negative (.scaled significand 10 exponent)

/-- Reads an exponent. -/
def exponent : Reader Int := do
  let _ ← takeIf fun c => c == 'e' || c == 'E'
  let negative ← sign
  let n := valueOf 10 (← digits Char.isDigit)
  pure (if negative.getD false then -(n : Int) else n)

/-- Reads a number with a fraction or an exponent. One above the range is refused; one below it is infinite. -/
def pointNumber : Reader Json := do
  let negative := (← sign).getD false
  let whole ← wholeDigits
  let fraction ← maybe (do takeChar '.'; digits Char.isDigit)
  let power ← maybe exponent
  if fraction.isNone && power.isNone then failure
  let places := fraction.getD []
  let x := floatOf negative (valueOf 10 (whole ++ places)) (power.getD 0 - places.length)
  if !negative && !x.isFinite then failure else pure (.float x)

/-- Reads an infinity or the value that is not a number. -/
def specialNumber : Reader Json := do
  let negative := (← sign).getD false
  (do takeWord "inf"; pure (.float (.infinity negative))) <|> (do takeWord "nan"; pure (.float .notNumber))

end AccessControl.Toml
