import MixedDomain.Text.Integer
import MixedDomain.Binary64.Basic

/-!
# Reading numbers from decimal text

## The nearest number

`read?` accepts the usual grammar: an optional sign, then `inf`, `infinity` or
`nan` in any case, or digits with at most one point and an optional exponent.
The result is the number nearest to what the text denotes.

## The number in steps

`ofScaled?` reads digits and a power of ten the way many readers of data formats
do: the digits become the nearest number first, which is then multiplied or
divided by the nearest number to the power of ten.
-/

namespace MixedDomain
namespace Binary64

def ofDecimal (negative : Bool) (digits : Nat) (power : Int) : Binary64 :=
  if digits = 0 then
    zero negative
  else if 310 < power + digits.log2 / 4 then
    infinity negative
  else if power + digits.log2 / 3 < -350 then
    zero negative
  else if 0 ≤ power then
    ofRatio negative (digits * Nat.pow 10 power.toNat) 1
  else
    ofRatio negative digits (Nat.pow 10 (-power).toNat)

def powerOfTen (n : Nat) : Binary64 :=
  ofRatio false (Nat.pow 10 n) 1

/-- `digits` rounded to a number and then scaled by powers of ten up to `10 ^ 308` each;
nothing if the result is too large. -/
def ofScaled? (digits : Nat) (power : Int) : Option Binary64 :=
  let start := ofRatio false digits 1
  if digits = 0 || power < -616 then
    some (zero false)
  else if power < -308 then
    some ((start.div (powerOfTen 308)).div (powerOfTen (-(power + 308)).toNat))
  else if power < 0 then
    some (start.div (powerOfTen (-power).toNat))
  else if power ≤ 308 then
    let result := start.mul (powerOfTen power.toNat)
    if result.isInfinite then none else some result
  else
    none

/-- The parts of a decimal literal without its sign. -/
structure Literal where
  whole : List Char
  fraction : List Char
  power : Int

/-- Reads `whole[.fraction][e[sign]digits]`; the mantissa has at least one digit. -/
def Literal.read? (cs : List Char) : Option Literal := do
  let mantissa := cs.takeWhile fun c => c != 'e' && c != 'E'
  let power ←
    match cs.dropWhile fun c => c != 'e' && c != 'E' with
    | [] => some 0
    | _ :: rest => Text.readInt? rest
  let whole := mantissa.takeWhile (· != '.')
  let fraction := (mantissa.dropWhile (· != '.')).drop 1
  if (whole.isEmpty && fraction.isEmpty) || !(whole ++ fraction).all Text.isDigit then
    none
  else
    return ⟨whole, fraction, power⟩

def lowered (cs : List Char) : List Char :=
  cs.map Char.toLower

def readUnsigned? (negative : Bool) (cs : List Char) : Option Binary64 :=
  let word := lowered cs
  if word = "inf".toList || word = "infinity".toList then
    some (infinity negative)
  else if word = "nan".toList then
    some nan
  else
    (Literal.read? cs).map fun literal =>
      ofDecimal negative (Text.natOfDigits (literal.whole ++ literal.fraction))
        (literal.power - literal.fraction.length)

def read? : List Char -> Option Binary64
  | '-' :: rest => readUnsigned? true rest
  | '+' :: rest => readUnsigned? false rest
  | cs => readUnsigned? false cs

end Binary64
end MixedDomain
