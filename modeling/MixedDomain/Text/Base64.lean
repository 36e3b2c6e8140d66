/-!
# Base64

## Encoding and strict decoding

Three octets are four letters of the standard alphabet; a last group of one or
two octets is padded with `=`.  Decoding accepts exactly what encoding produces:
padding is required and the unused bits of a padded group are zero.
-/

namespace MixedDomain
namespace Text
namespace Base64

def letter (n : Nat) : Char :=
  if n < 26 then Char.ofNat (65 + n)
  else if n < 52 then Char.ofNat (97 + (n - 26))
  else if n < 62 then Char.ofNat (48 + (n - 52))
  else if n = 62 then '+'
  else '/'

def index? (c : Char) : Option Nat :=
  let n := c.toNat
  if 65 ≤ n && n ≤ 90 then some (n - 65)
  else if 97 ≤ n && n ≤ 122 then some (n - 97 + 26)
  else if 48 ≤ n && n ≤ 57 then some (n - 48 + 52)
  else if c = '+' then some 62
  else if c = '/' then some 63
  else none

def encode : List UInt8 -> List Char
  | [] => []
  | [a] =>
      let n := a.toNat * 65536
      [letter (n / 262144), letter (n / 4096 % 64), '=', '=']
  | [a, b] =>
      let n := a.toNat * 65536 + b.toNat * 256
      [letter (n / 262144), letter (n / 4096 % 64), letter (n / 64 % 64), '=']
  | a :: b :: c :: rest =>
      let n := a.toNat * 65536 + b.toNat * 256 + c.toNat
      letter (n / 262144) :: letter (n / 4096 % 64) :: letter (n / 64 % 64)
        :: letter (n % 64) :: encode rest

/-- The last group: its padding says how many octets it holds. -/
def decodeLast (a b c d : Char) : Option (List UInt8) := do
  let i ← index? a
  let j ← index? b
  let n := i * 64 + j
  if c = '=' then
    if d = '=' && n % 16 = 0 then
      return [UInt8.ofNat (n / 16)]
    else
      none
  else
    let k ← index? c
    let n := n * 64 + k
    if d = '=' then
      if n % 4 = 0 then
        return [UInt8.ofNat (n / 1024), UInt8.ofNat (n / 4)]
      else
        none
    else
      let l ← index? d
      let n := n * 64 + l
      return [UInt8.ofNat (n / 65536), UInt8.ofNat (n / 256), UInt8.ofNat n]

def decodeGroup (a b c d : Char) : Option (List UInt8) :=
  if d = '=' then none else decodeLast a b c d

def decode : List Char -> Option (List UInt8)
  | [] => some []
  | [a, b, c, d] => decodeLast a b c d
  | a :: b :: c :: d :: rest => do
      let front ← decodeGroup a b c d
      let back ← decode rest
      return front ++ back
  | _ => none

end Base64
end Text
end MixedDomain
