import MixedDomain.Text.Integer

/-!
# Literals of numbers without bounds

## Integers

An optional minus sign and at least one digit.

## Decimals

An optional sign, digits with at most one point and at least one digit, and an
optional exponent with an optional sign and at least one digit.  `isDecimal`
decides this by cutting the text at the first exponent letter and at the first
point.
-/

namespace MixedDomain
namespace Literal

def allDigits (cs : List Char) : Bool :=
  cs.all Text.isDigit

def someDigits (cs : List Char) : Bool :=
  !cs.isEmpty && allDigits cs

def withoutMinus : List Char -> List Char
  | '-' :: rest => rest
  | cs => cs

def withoutSign : List Char -> List Char
  | '-' :: rest => rest
  | '+' :: rest => rest
  | cs => cs

def isInteger (cs : List Char) : Bool :=
  someDigits (withoutMinus cs)

def isExponentMark (c : Char) : Bool :=
  c == 'e' || c == 'E'

/-- Digits with at most one point and at least one digit. -/
def isMantissa (cs : List Char) : Bool :=
  let whole := cs.takeWhile (· != '.')
  let fraction := (cs.dropWhile (· != '.')).drop 1
  !(whole.isEmpty && fraction.isEmpty) && allDigits whole && allDigits fraction

/-- An exponent with its letter, or nothing. -/
def isExponent : List Char -> Bool
  | [] => true
  | _ :: rest => someDigits (withoutSign rest)

def isDecimal (cs : List Char) : Bool :=
  let unsigned := withoutSign cs
  isMantissa (unsigned.takeWhile fun c => !isExponentMark c)
    && isExponent (unsigned.dropWhile fun c => !isExponentMark c)

end Literal
end MixedDomain
