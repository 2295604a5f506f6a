import AccessControl.Json
import AccessControl.Toml.Lexeme

namespace AccessControl.Toml

/-- A day of the calendar. -/
structure Day where
  year : Nat
  month : Nat
  day : Nat

/-- A time of day, with its fraction of a second as digits. -/
structure Clock where
  hour : Nat
  minute : Nat
  second : Nat
  fraction : List Char

/-- The distance of a local time from universal time. -/
inductive Offset
  | universal
  | ahead (hours minutes : Nat)
  | behind (hours minutes : Nat)

/-- Reads a number of exactly so many digits. -/
def fixedDigits (count : Nat) : Reader Nat := fun cs =>
  let digits := (cs.take count).takeWhile Char.isDigit
  if digits.length = count then
    some (digits.foldl (fun n c => 10 * n + (c.toNat - '0'.toNat)) 0, cs.drop count)
  else none

/-- Reads two digits whose number lies within bounds. -/
def twoDigits (least greatest : Nat) : Reader Nat := do
  let n ← fixedDigits 2
  if least ≤ n && n ≤ greatest then pure n else failure

def isLeapYear (year : Nat) : Bool := year % 4 == 0 && (year % 100 != 0 || year % 400 == 0)

def daysIn (year month : Nat) : Nat :=
  if month = 2 then (if isLeapYear year then 29 else 28)
  else if month = 4 || month = 6 || month = 9 || month = 11 then 30
  else 31

def day : Reader Day := do
  let year ← fixedDigits 4
  takeChar '-'
  let month ← twoDigits 1 12
  takeChar '-'
  let day ← twoDigits 1 31
  if day ≤ daysIn year month then pure ⟨year, month, day⟩ else failure

/-- The digits of a fraction of a second: nine at most, and no zeros at the end. -/
def normalFraction (digits : List Char) : List Char :=
  ((digits.take 9).reverse.dropWhile (· == '0')).reverse

/-- Reads a time of day. The sixtieth second is allowed for. -/
def clock : Reader Clock := do
  let hour ← twoDigits 0 23
  takeChar ':'
  let minute ← twoDigits 0 59
  takeChar ':'
  let second ← twoDigits 0 60
  let fraction ← maybe (do takeChar '.'; takeSome Char.isDigit)
  pure ⟨hour, minute, second, normalFraction (fraction.getD [])⟩

def offset : Reader Offset := do
  match ← takeIf fun _ => true with
  | 'Z' | 'z' => pure .universal
  | '+' => do
    let hours ← twoDigits 0 23
    takeChar ':'
    pure (.ahead hours (← twoDigits 0 59))
  | '-' => do
    let hours ← twoDigits 0 23
    takeChar ':'
    pure (.behind hours (← twoDigits 0 59))
  | _ => failure

/-- A number with zeros before it up to a width. -/
def padded (width n : Nat) : String :=
  let digits := Nat.toDigits 10 n
  String.ofList (List.replicate (width - digits.length) '0' ++ digits)

def Day.text (d : Day) : String := padded 4 d.year ++ "-" ++ padded 2 d.month ++ "-" ++ padded 2 d.day

def Clock.text (c : Clock) : String :=
  let fraction := if c.fraction.isEmpty then "" else "." ++ String.ofList c.fraction
  padded 2 c.hour ++ ":" ++ padded 2 c.minute ++ ":" ++ padded 2 c.second ++ fraction

/-- A distance of zero has a plus sign. -/
def Offset.text : Offset → String
  | universal => "Z"
  | ahead hours minutes => "+" ++ padded 2 hours ++ ":" ++ padded 2 minutes
  | behind hours minutes =>
    (if hours = 0 && minutes = 0 then "+" else "-") ++ padded 2 hours ++ ":" ++ padded 2 minutes

/-- The name under which the normal text of a date or time is kept. -/
def momentKey : String := "$__toml_private_datetime"

def momentJson (text : String) : Json := .obj [(momentKey, .str text)]

/-- Reads a day, perhaps with a time and an offset, or a time alone. -/
def moment : Reader Json :=
  (do
    let d ← day
    let rest ← maybe do
      let _ ← takeIf fun c => c == 'T' || c == 't' || c == ' '
      let c ← clock
      let o ← maybe offset
      pure ("T" ++ c.text ++ (o.map Offset.text).getD "")
    pure (momentJson (d.text ++ rest.getD ""))) <|>
  (do pure (momentJson (← clock).text))

end AccessControl.Toml
