import AccessControl.Binary64

namespace AccessControl

/-- A decimal number: its digits read as a natural number, times a power of ten. -/
structure Decimal where
  digits : Nat
  exponent : Int
  deriving DecidableEq, Repr

/-- The interval of ratios that round to one floating-point number. -/
structure RoundingInterval where
  low : Ratio
  high : Ratio
  closed : Bool

namespace RoundingInterval

def holds (i : RoundingInterval) (r : Ratio) : Bool :=
  if i.closed then i.low.atMost r && r.atMost i.high else i.low.less r && r.less i.high

end RoundingInterval

namespace Binary64

/-- Half the distance to each neighbour. Below a power of two the neighbour is twice as near; the ends belong to
the interval when the significand is even. -/
def roundingInterval (x : Binary64) : RoundingInterval :=
  let (m, e) := x.significand
  let low := if m = Nat.pow 2 52 && -1074 < e then Ratio.scaled (4 * m - 1) 2 (e - 2) else Ratio.scaled (2 * m - 1) 2 (e - 1)
  ⟨low, Ratio.scaled (2 * m + 1) 2 (e - 1), m % 2 == 0⟩

/-- The exponent of ten of the leading digit of a positive ratio. -/
def leadingExponent (r : Ratio) : Int :=
  let guess : Int := (r.floorLog2 * 30103) / 100000
  if (Ratio.scaled 1 10 (guess + 1)).atMost r then guess + 1
  else if (Ratio.scaled 1 10 guess).atMost r then guess
  else guess - 1

/-- The decimals with so many digits that stand next to a ratio, the nearer one first; a tie goes to the even one. -/
def neighbours (r : Ratio) (digitCount : Nat) : List Decimal :=
  let exponent := leadingExponent r + 1 - digitCount
  let unit := Ratio.scaled 1 10 exponent
  let num := r.num * unit.den
  let den := r.den * unit.num
  let floor := num / den
  if divRound num den = floor then [⟨floor, exponent⟩, ⟨floor + 1, exponent⟩]
  else [⟨floor + 1, exponent⟩, ⟨floor, exponent⟩]

/-- Zeros at the end of the digits move into the exponent. -/
def dropTrailingZeros : Nat → Decimal → Decimal
  | 0, d => d
  | fuel + 1, d =>
    if d.digits ≠ 0 ∧ d.digits % 10 = 0 then dropTrailingZeros fuel ⟨d.digits / 10, d.exponent + 1⟩ else d

/-- The decimal with the fewest digits that reads back as a finite positive number, and of those the nearest.
Seventeen digits always suffice. -/
def shortest (x : Binary64) : Decimal :=
  let r := x.toRatio
  let interval := x.roundingInterval
  let hits := (List.range 17).findSome? fun n =>
    (neighbours r (n + 1)).find? fun d => interval.holds (Ratio.scaled d.digits 10 d.exponent)
  dropTrailingZeros 20 (hits.getD ⟨0, 0⟩)

/-- How a decimal is laid out: positional while the point stands within these bounds, else with an exponent. The last
field is what stands before an exponent that is not negative. -/
structure DecimalLayout where
  leastPoint : Int
  greatestPoint : Int
  exponentSign : String

/-- Numbers from 10⁻⁵ up to but not including 10¹⁶ are written without an exponent. An exponent always has a sign. -/
def plainLayout : DecimalLayout := ⟨-4, 16, "+"⟩

/-- A decimal as text. A whole number keeps one zero after its point. -/
def DecimalLayout.write (layout : DecimalLayout) (d : Decimal) : String :=
  let digits := Nat.toDigits 10 d.digits
  let point : Int := digits.length + d.exponent
  if 0 ≤ d.exponent ∧ point ≤ layout.greatestPoint then
    String.ofList (digits ++ List.replicate d.exponent.toNat '0') ++ ".0"
  else if 0 < point ∧ point ≤ layout.greatestPoint then
    String.ofList (digits.take point.toNat) ++ "." ++ String.ofList (digits.drop point.toNat)
  else if layout.leastPoint ≤ point ∧ point ≤ 0 then
    "0." ++ String.ofList (List.replicate (-point).toNat '0' ++ digits)
  else
    let fraction := if digits.length = 1 then "" else "." ++ String.ofList (digits.drop 1)
    let sign := if 0 < point then layout.exponentSign else ""
    String.ofList (digits.take 1) ++ fraction ++ "e" ++ sign ++ toString (point - 1)

/-- The shortest text that reads back as a finite number. -/
def text (x : Binary64) : String :=
  let sign := if x.isNegative then "-" else ""
  if x.isZero then sign ++ "0.0" else sign ++ plainLayout.write x.shortest

end Binary64

end AccessControl
