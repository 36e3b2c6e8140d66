/-!
# Numbers of 64 bits with a binary point

## Representation

A number is a word of 64 bits: a sign, eleven bits of exponent and 52 bits of
fraction.  A finite word stands for its significand times a power of two, and
every question about it is answered by exact arithmetic on natural numbers.

## Rounding

`ofRatio` is the one place that rounds: it gives the number nearest to a
fraction, and of two equally near ones the one with an even significand.  All
conversions and the two operations `mul` and `div` are stated through it.
-/

namespace MixedDomain

/-- A word read as a binary number: sign, exponent, fraction. -/
structure Binary64 where
  bits : UInt64
  deriving DecidableEq, Inhabited, Repr

namespace Binary64

def signWeight : Nat :=
  1 <<< 63

def exponentWeight : Nat :=
  1 <<< 52

def negative (d : Binary64) : Bool :=
  signWeight ≤ d.bits.toNat

/-- The word without its sign. -/
def magnitude (d : Binary64) : Nat :=
  d.bits.toNat % signWeight

def exponentField (d : Binary64) : Nat :=
  d.magnitude / exponentWeight

def fraction (d : Binary64) : Nat :=
  d.magnitude % exponentWeight

def isNaN (d : Binary64) : Bool :=
  d.exponentField == 2047 && d.fraction != 0

def isInfinite (d : Binary64) : Bool :=
  d.exponentField == 2047 && d.fraction == 0

def isFinite (d : Binary64) : Bool :=
  d.exponentField != 2047

def isZero (d : Binary64) : Bool :=
  d.magnitude == 0

def significand (d : Binary64) : Nat :=
  if d.exponentField = 0 then d.fraction else exponentWeight + d.fraction

def exponent (d : Binary64) : Int :=
  if d.exponentField = 0 then -1074 else (d.exponentField : Int) - 1075

/-- Numeric equality: the two zeros are equal, and nothing equals what is not a number. -/
def eqv (a b : Binary64) : Bool :=
  !a.isNaN && !b.isNaN && (a.bits == b.bits || (a.isZero && b.isZero))

instance : BEq Binary64 :=
  ⟨eqv⟩

def ofMagnitude (negative : Bool) (magnitude : Nat) : Binary64 :=
  ⟨UInt64.ofNat (magnitude + if negative then signWeight else 0)⟩

def infinity (negative : Bool) : Binary64 :=
  ofMagnitude negative (2047 * exponentWeight)

def zero (negative : Bool) : Binary64 :=
  ofMagnitude negative 0

def nan : Binary64 :=
  ofMagnitude false (2047 * exponentWeight + exponentWeight / 2)

def neg (d : Binary64) : Binary64 :=
  ofMagnitude (!d.negative) d.magnitude

/-- The integer nearest to a fraction; a tie goes to the even one. -/
def roundToEven (num den : Nat) : Nat :=
  let low := num / den
  let rest := 2 * (num % den)
  if rest < den then low
  else if den < rest then low + 1
  else if low % 2 = 0 then low
  else low + 1

def scaledBy (num den : Nat) (q : Int) : Nat × Nat :=
  if 0 ≤ q then (num, den <<< q.toNat) else (num <<< (-q).toNat, den)

/-- The exponent at which a positive fraction has a significand of 53 bits, or the least one. -/
def exponentOf (num den : Nat) : Int :=
  let high : Int := max ((num.log2 : Int) - (den.log2 : Int) - 52) (-1074)
  let scaled := scaledBy num den high
  if scaled.1 / scaled.2 < exponentWeight then max (high - 1) (-1074) else high

/-- The number nearest to `num / den`; a tie goes to the even significand. -/
def ofRatio (negative : Bool) (num den : Nat) : Binary64 :=
  if num = 0 then
    zero negative
  else
    let q := exponentOf num den
    let scaled := scaledBy num den q
    let word := (q + 1074).toNat * exponentWeight + roundToEven scaled.1 scaled.2
    if 2047 * exponentWeight ≤ word then infinity negative else ofMagnitude negative word

def toRatio (d : Binary64) : Nat × Nat :=
  if 0 ≤ d.exponent then
    (d.significand <<< d.exponent.toNat, 1)
  else
    (d.significand, 1 <<< (-d.exponent).toNat)

def ofInt (i : Int) : Binary64 :=
  ofRatio (i < 0) i.natAbs 1

def mul (a b : Binary64) : Binary64 :=
  ofRatio (a.negative != b.negative) (a.toRatio.1 * b.toRatio.1) (a.toRatio.2 * b.toRatio.2)

/-- The nearest number to the quotient of two finite numbers, the second one not zero. -/
def div (a b : Binary64) : Binary64 :=
  ofRatio (a.negative != b.negative) (a.toRatio.1 * b.toRatio.2) (a.toRatio.2 * b.toRatio.1)

/-- The integer part of a finite number: the fraction is cut off toward zero. -/
def truncate (d : Binary64) : Int :=
  let size : Int := (d.toRatio.1 / d.toRatio.2 : Nat)
  if d.negative then -size else size

end Binary64
end MixedDomain
