namespace AccessControl

/-- A binary floating-point number of 64 bits, held by its bits: one for the sign, eleven for the exponent and
fifty-two for the fraction. Two numbers are equal when their bits are, so the two zeros differ. -/
structure Binary64 where
  bits : UInt64
  deriving DecidableEq, Repr

/-- The quotient rounded to the nearest integer; a half goes to the even neighbour. -/
def divRound (num den : Nat) : Nat :=
  let floor := num / den
  let twice := 2 * (num % den)
  if den < twice || (twice == den && floor % 2 == 1) then floor + 1 else floor

/-- A non-negative ratio. -/
structure Ratio where
  num : Nat
  den : Nat
  deriving DecidableEq, Repr

namespace Ratio

def ofNat (n : Nat) : Ratio := ⟨n, 1⟩

def mul (a b : Ratio) : Ratio := ⟨a.num * b.num, a.den * b.den⟩
def div (a b : Ratio) : Ratio := ⟨a.num * b.den, a.den * b.num⟩
def less (a b : Ratio) : Bool := a.num * b.den < b.num * a.den
def atMost (a b : Ratio) : Bool := a.num * b.den ≤ b.num * a.den

/-- A natural number times a power of a base, whose exponent may be negative. -/
def scaled (n base : Nat) (exponent : Int) : Ratio :=
  if 0 ≤ exponent then ⟨n * base.pow exponent.toNat, 1⟩ else ⟨n, base.pow (-exponent).toNat⟩

/-- The largest exponent of two whose power is at most a positive ratio. -/
def floorLog2 (r : Ratio) : Int :=
  let guess : Int := (r.num.log2 : Int) - r.den.log2
  if (scaled 1 2 guess).atMost r then guess else guess - 1

end Ratio

namespace Binary64

def signBit : Nat := Nat.pow 2 63

/-- The bits of positive infinity, the first above those of the finite numbers. -/
def infinityBits : Nat := 0x7FF0000000000000

def ofParts (negative : Bool) (magnitude : Nat) : Binary64 :=
  ⟨UInt64.ofNat (if negative then signBit + magnitude else magnitude)⟩

def isNegative (x : Binary64) : Bool := signBit ≤ x.bits.toNat
def magnitude (x : Binary64) : Nat := x.bits.toNat % signBit
def isFinite (x : Binary64) : Bool := x.magnitude < infinityBits
def isZero (x : Binary64) : Bool := x.magnitude == 0

def infinity (negative : Bool) : Binary64 := ofParts negative infinityBits
def notNumber : Binary64 := ofParts false 0x7FF8000000000000

/-- The bits of the number nearest to a ratio, a tie going to the even neighbour. The exponent field and the
fraction are adjacent, so a carry out of the fraction moves to the next exponent by itself. -/
def nearestBits (r : Ratio) : Nat :=
  if r.num = 0 then 0
  else
    let exponent := max (r.floorLog2 - 52) (-1074)
    let unit := Ratio.scaled 1 2 exponent
    let significand := divRound (r.num * unit.den) (r.den * unit.num)
    min infinityBits ((exponent + 1074).toNat * Nat.pow 2 52 + significand)

/-- The number nearest to a signed ratio. -/
def ofRatio (negative : Bool) (r : Ratio) : Binary64 := ofParts negative (nearestBits r)

/-- The significand and the exponent of two of a finite number, sign apart. -/
def significand (x : Binary64) : Nat × Int :=
  let field : Nat := x.magnitude / Nat.pow 2 52
  let fraction : Nat := x.magnitude % Nat.pow 2 52
  if field = 0 then (fraction, -1074) else (Nat.pow 2 52 + fraction, (field : Int) - 1075)

/-- The exact size of a finite number. -/
def toRatio (x : Binary64) : Ratio :=
  let (m, e) := x.significand
  Ratio.scaled m 2 e

end Binary64

end AccessControl
