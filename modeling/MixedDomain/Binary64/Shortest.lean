import MixedDomain.Binary64.Basic

/-!
# The shortest decimal text of a number

## The digits

A finite number is the nearest one to every point of an interval of the real
line.  For one, two, ... digits `shortest` looks at the two neighbours of the
number on the decimal grid of that size; the first grid with a neighbour in the
interval wins, and of two neighbours the nearer one.

## The layouts

The same digits are laid out in two ways: `plain` never uses an exponent and has
no point for an integer, `scientific` keeps a point or an exponent, so that the
text cannot be read as an integer.
-/

namespace MixedDomain
namespace Binary64

/-- The digits of a positive number with its decimal point: the number is `0.digits · 10 ^ point`. -/
structure Digits where
  digits : List Char
  point : Int
  deriving Repr

/-- Where two neighbours on a grid are equally near. -/
inductive Tie where
  | even
  | up
  deriving DecidableEq, Repr

/-- The reals that round to a number, as fractions of one denominator:
the number itself, both ends, and whether the ends belong to it. -/
structure Interval where
  value : Nat
  low : Nat
  high : Nat
  den : Nat
  closed : Bool

def interval (d : Binary64) : Interval :=
  let m := d.significand
  let q := d.exponent - 2
  let up := if 0 ≤ q then 1 <<< q.toNat else 1
  let low := if m = exponentWeight && -1074 < d.exponent then 4 * m - 1 else 4 * m - 2
  { value := 4 * m * up
    low := low * up
    high := (4 * m + 2) * up
    den := if 0 ≤ q then 1 else 1 <<< (-q).toNat
    closed := m % 2 = 0 }

def Interval.holds (i : Interval) (n : Nat) (power : Int) : Bool :=
  let point := if 0 ≤ power then n * Nat.pow 10 power.toNat * i.den else n * i.den
  let scale := if 0 ≤ power then 1 else Nat.pow 10 (-power).toNat
  if i.closed then
    i.low * scale ≤ point && point ≤ i.high * scale
  else
    i.low * scale < point && point < i.high * scale

/-- The number of digits before the decimal point: the least `p` with `value < 10 ^ p`. -/
def Interval.point (i : Interval) : Int :=
  if i.den ≤ i.value then
    (Nat.toDigits 10 (i.value / i.den)).length
  else
    let zeros := (Nat.toDigits 10 ((i.den - 1) / i.value)).length
    1 - (zeros : Int)

/-- The neighbour of the number on the grid of step `10 ^ power`, if it reads back. -/
def Interval.neighbour? (i : Interval) (tie : Tie) (power : Int) : Option Nat :=
  let num := if 0 ≤ power then i.value else i.value * Nat.pow 10 (-power).toNat
  let den := if 0 ≤ power then i.den * Nat.pow 10 power.toNat else i.den
  let below := num / den
  let rest := 2 * (num % den)
  let preferAbove :=
    if rest < den then false
    else if den < rest then true
    else tie = .up || below % 2 = 1
  match i.holds below power && below != 0, i.holds (below + 1) power with
  | true, true => some (if preferAbove then below + 1 else below)
  | true, false => some below
  | false, true => some (below + 1)
  | false, false => none

def withoutTrailingZeros (cs : List Char) : List Char :=
  (cs.reverse.dropWhile (· == '0')).reverse

/-- Tries grids of `count`, `count + 1`, ... digits, at most `left` of them. -/
def Interval.search (i : Interval) (tie : Tie) (point : Int) : Nat -> Nat -> Digits
  | 0, _ => ⟨['0'], 1⟩
  | left + 1, count =>
      match i.neighbour? tie (point - count) with
      | some n =>
          let digits := Nat.toDigits 10 n
          ⟨withoutTrailingZeros digits, point - count + digits.length⟩
      | none => i.search tie point left (count + 1)

/-- The fewest digits that read back as the number; seventeen are always enough. -/
def shortest (tie : Tie) (d : Binary64) : Digits :=
  if d.isZero then
    ⟨['0'], 1⟩
  else
    let i := d.interval
    i.search tie i.point 17 1

/-- Digits with a point somewhere among them, and zeros where there are none. -/
def Digits.positional (d : Digits) : List Char :=
  if d.point ≤ 0 then
    "0.".toList ++ List.replicate (-d.point).toNat '0' ++ d.digits
  else if d.digits.length ≤ d.point then
    d.digits ++ List.replicate (d.point.toNat - d.digits.length) '0'
  else
    d.digits.take d.point.toNat ++ '.' :: d.digits.drop d.point.toNat

def Digits.exponential (d : Digits) : List Char :=
  let power := d.point - 1
  let mantissa :=
    match d.digits with
    | first :: next :: rest => first :: '.' :: next :: rest
    | digits => digits
  let sign := if power < 0 then '-' else '+'
  mantissa ++ 'e' :: sign :: Nat.toDigits 10 power.natAbs

def signed (d : Binary64) (magnitude : List Char) : String :=
  String.ofList (if d.negative then '-' :: magnitude else magnitude)

/-- The text without exponent, such as `1`, `-0`, `0.0000001`, `NaN`, `inf`. -/
def plain (d : Binary64) : String :=
  if d.isNaN then "NaN"
  else if d.isInfinite then d.signed "inf".toList
  else d.signed (d.shortest .up).positional

/-- The text that shows a finite number not to be an integer literal: a point or an exponent.
From five zeros after the point, or seventeen digits before it, there is an exponent. -/
def scientific (d : Binary64) : String :=
  let digits := d.shortest .even
  if -5 < digits.point && digits.point ≤ 16 then
    if digits.digits.length ≤ digits.point then
      d.signed (digits.positional ++ ".0".toList)
    else
      d.signed digits.positional
  else
    d.signed digits.exponential

end Binary64
end MixedDomain
