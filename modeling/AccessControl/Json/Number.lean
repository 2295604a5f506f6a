import AccessControl.Json

namespace AccessControl
namespace Json

/-- The largest natural number of 64 bits. -/
def maxWord : Nat := Nat.pow 2 64 - 1

def digitValue (c : Char) : Nat := c.toNat - '0'.toNat

/-- The value of a list of decimal digits. -/
def digitsValue (digits : List Char) : Nat := digits.foldl (fun n c => 10 * n + digitValue c) 0

/-- Extends a significand by the digits before the point as long as it fits into 64 bits. The second part is the
number of digits left out. -/
def extendWhole : Nat → List Char → Nat × Nat
  | s, [] => (s, 0)
  | s, c :: rest =>
    if 10 * s + digitValue c ≤ maxWord then extendWhole (10 * s + digitValue c) rest else (s, rest.length + 1)

/-- Extends a significand by the digits after the point as long as it fits into 64 bits. The second part is the
number of digits taken. -/
def extendFraction : Nat → List Char → Nat × Nat
  | s, [] => (s, 0)
  | s, c :: rest =>
    if 10 * s + digitValue c ≤ maxWord then
      let (t, taken) := extendFraction (10 * s + digitValue c) rest
      (t, taken + 1)
    else (s, 0)

/-- Multiplies or divides a size by a power of ten, both rounded. Beyond the powers that a floating-point number can
hold, a size is brought down in steps; one that grows out of range is refused. -/
def scaleByTen : Nat → Binary64 → Int → Option Binary64
  | 0, x, _ => some x
  | fuel + 1, x, exponent =>
    if exponent.natAbs ≤ 308 then
      let power := (Binary64.ofRatio false (Ratio.ofNat (10 ^ exponent.natAbs))).toRatio
      if 0 ≤ exponent then
        let product := Binary64.ofRatio false (x.toRatio.mul power)
        if product.isFinite then some product else none
      else some (Binary64.ofRatio false (x.toRatio.div power))
    else if x.isZero then some x
    else if 0 ≤ exponent then none
    else
      let step := (Binary64.ofRatio false (Ratio.ofNat (10 ^ 308))).toRatio
      scaleByTen fuel (Binary64.ofRatio false (x.toRatio.div step)) (exponent + 308)

/-- The floating-point number of a significand of 64 bits and a power of ten. -/
def floatOf (negative : Bool) (significand : Nat) (exponent : Int) : Option Json :=
  (scaleByTen 4 (Binary64.ofRatio false (Ratio.ofNat significand)) exponent).map fun x =>
    float (Binary64.ofParts negative x.magnitude)

/-- The number written without point and exponent. It is an integer if 64 bits can hold it; minus zero is a
floating-point number. -/
def wholeNumber (negative : Bool) (digits : List Char) : Option Json :=
  match extendWhole 0 digits with
  | (n, 0) =>
    if !negative then some (int n)
    else if n = 0 || Nat.pow 2 63 < n then floatOf true n 0
    else some (int (-(n : Int)))
  | (n, left) => floatOf negative n left

/-- The number with digits before and after the point and an exponent. -/
def pointNumber (negative : Bool) (whole fraction : List Char) (exponent : Int) : Option Json :=
  let (s, left) := extendWhole 0 whole
  let (t, taken) := extendFraction s fraction
  floatOf negative t (exponent + left - taken)

end Json

end AccessControl
