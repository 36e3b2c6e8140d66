/-!
# Integer literals

## Reading

An integer literal is an optional sign and at least one ASCII digit, and
nothing else.  The reader is generous about leading zeros and gives the number
without any bound; callers check the range of the type they want.
-/

namespace MixedDomain
namespace Text

def isDigit (c : Char) : Bool :=
  '0' ≤ c && c ≤ '9'

def digitValue (c : Char) : Nat :=
  c.toNat - 48

def hexValue? (c : Char) : Option Nat :=
  if isDigit c then some (c.toNat - 48)
  else if 'a' ≤ c && c ≤ 'f' then some (c.toNat - 87)
  else if 'A' ≤ c && c ≤ 'F' then some (c.toNat - 55)
  else none

def natOfDigits (cs : List Char) : Nat :=
  cs.foldl (fun n c => n * 10 + digitValue c) 0

/-- Reads a run of at least one digit. -/
def readDigits? (cs : List Char) : Option Nat :=
  if !cs.isEmpty && cs.all isDigit then some (natOfDigits cs) else none

/-- Reads a run of at least one digit of a base up to 16. -/
def readBase? (base : Nat) (cs : List Char) : Option Nat :=
  if cs.isEmpty then
    none
  else
    cs.foldlM (fun n c => do
      let value ← hexValue? c
      if value < base then some (n * base + value) else none) 0

def readInt? : List Char -> Option Int
  | '-' :: rest => (readDigits? rest).map fun n => -(n : Int)
  | '+' :: rest => (readDigits? rest).map fun n => (n : Int)
  | cs => (readDigits? cs).map fun n => (n : Int)

def readNat? : List Char -> Option Nat
  | '+' :: rest => readDigits? rest
  | cs => readDigits? cs

end Text
end MixedDomain
