import MixedDomain.Binary64.Decimal
import MixedDomain.Json.Basic

/-!
# Tokens of JSON text

## The scanner

The scanner is an automaton that takes one character at a time and emits tokens.
A number or a word ends at the first character that cannot belong to it, which
is then looked at afresh.

## Numbers

A number with a point or an exponent is read by scaling the digits that fit into
64 bits: the later digits of the fraction are dropped, and a number that is too
large is refused.
-/

namespace MixedDomain
namespace Json

/-- A token: a mark of punctuation, or a document that has no parts. -/
inductive Token where
  | openArray
  | closeArray
  | openObject
  | closeObject
  | colon
  | comma
  | text (s : String)
  | leaf (json : Json)

/-- What has been seen of the token at hand. -/
inductive Scan where
  | between
  | word (reversed : List Char)
  | number (reversed : List Char)
  | text (reversed : List Char)
  | escape (reversed : List Char)
  | unicode (reversed : List Char) (pending : Option Nat) (digits : Nat) (code : Nat)
  | lowHalf (reversed : List Char) (high : Nat)
  | lowMark (reversed : List Char) (high : Nat)

/-- Adds digits to a number as long as it has 64 bits, and says what is left. -/
def gather (start : Nat) : List Char -> Nat × List Char
  | [] => (start, [])
  | c :: rest =>
      let next := start * 10 + Text.digitValue c
      if next < UInt64.size then gather next rest else (start, c :: rest)

/-- The parts of a number, as it is written. -/
structure NumberText where
  negative : Bool
  whole : List Char
  fraction : Option (List Char)
  power : Option Int

/-- Reads the grammar of numbers: no leading zeros, and digits on both sides of a point. -/
def NumberText.read? (cs : List Char) : Option NumberText := do
  let (negative, cs) :=
    match cs with
    | '-' :: rest => (true, rest)
    | cs => (false, cs)
  let whole := cs.takeWhile Text.isDigit
  let rest := cs.dropWhile Text.isDigit
  if whole.isEmpty || (whole.head? == some '0' && whole.length != 1) then
    none
  let (fraction, rest) :=
    match rest with
    | '.' :: rest => (some (rest.takeWhile Text.isDigit), rest.dropWhile Text.isDigit)
    | rest => (none, rest)
  if fraction == some [] then
    none
  match rest with
  | [] => return ⟨negative, whole, fraction, none⟩
  | c :: rest =>
      if c = 'e' || c = 'E' then
        let power ← Text.readInt? rest
        return ⟨negative, whole, fraction, some power⟩
      else
        none

def withSign (negative : Bool) (d : Binary64) : Binary64 :=
  if negative then d.neg else d

def NumberText.scaled? (n : NumberText) : Option Binary64 :=
  let (digits, late) := gather 0 n.whole
  let fraction := n.fraction.getD []
  let (digits, dropped) := gather digits fraction
  let power : Int := late.length - (fraction.length - dropped.length : Nat) + n.power.getD 0
  (Binary64.ofScaled? digits power).map (withSign n.negative)

/-- The document of a number.  Integers have 64 bits, those below zero with their sign; all
others, and the negative zero, are binary numbers. -/
def NumberText.toJson? (n : NumberText) : Option Json :=
  let size := Text.natOfDigits n.whole
  let binary := n.scaled?.map .double
  match n.fraction, n.power with
  | none, none =>
      if n.negative then
        if 0 < size && Int64.minValue.toInt ≤ -(size : Int) then some (.int (-(size : Int)))
        else binary
      else
        if size < UInt64.size then some (.int size) else binary
  | _, _ => binary

def wordToken? (word : List Char) : Option Token :=
  if word = "null".toList then some (.leaf .null)
  else if word = "true".toList then some (.leaf (.bool true))
  else if word = "false".toList then some (.leaf (.bool false))
  else none

def isWordChar (c : Char) : Bool :=
  'a' ≤ c && c ≤ 'z'

def isNumberChar (c : Char) : Bool :=
  Text.isDigit c || c == '.' || c == 'e' || c == 'E' || c == '+' || c == '-'

def scanBetween (c : Char) : Option (List Token × Scan) :=
  match c with
  | ' ' | '\n' | '\t' | '\r' => some ([], .between)
  | '[' => some ([.openArray], .between)
  | ']' => some ([.closeArray], .between)
  | '\x7b' => some ([.openObject], .between)
  | '\x7d' => some ([.closeObject], .between)
  | ':' => some ([.colon], .between)
  | ',' => some ([.comma], .between)
  | '"' => some ([], .text [])
  | c =>
      if isWordChar c then some ([], .word [c])
      else if Text.isDigit c || c == '-' then some ([], .number [c])
      else none

def scanEscape (reversed : List Char) (c : Char) : Option (List Token × Scan) :=
  match c with
  | '"' | '\\' | '/' => some ([], .text (c :: reversed))
  | 'b' => some ([], .text ('\x08' :: reversed))
  | 'f' => some ([], .text ('\x0c' :: reversed))
  | 'n' => some ([], .text ('\n' :: reversed))
  | 'r' => some ([], .text ('\r' :: reversed))
  | 't' => some ([], .text ('\t' :: reversed))
  | 'u' => some ([], .unicode reversed none 0 0)
  | _ => none

/-- A code unit of four hexadecimal digits is complete.  The two halves of a pair must follow one
another. -/
def scanCode (reversed : List Char) (pending : Option Nat) (code : Nat) : Option Scan :=
  match pending with
  | some high =>
      if 0xDC00 ≤ code && code ≤ 0xDFFF then
        some (.text (Char.ofNat (0x10000 + (high - 0xD800) * 0x400 + (code - 0xDC00)) :: reversed))
      else
        none
  | none =>
      if 0xD800 ≤ code && code ≤ 0xDBFF then some (.lowHalf reversed code)
      else if 0xDC00 ≤ code && code ≤ 0xDFFF then none
      else some (.text (Char.ofNat code :: reversed))

/-- Takes one character: the tokens that it completes, and what has been seen then. -/
def scanStep (scan : Scan) (c : Char) : Option (List Token × Scan) :=
  match scan with
  | .between => scanBetween c
  | .word reversed =>
      if isWordChar c then
        some ([], .word (c :: reversed))
      else do
        let token ← wordToken? reversed.reverse
        let (tokens, next) ← scanBetween c
        return (token :: tokens, next)
  | .number reversed =>
      if isNumberChar c then
        some ([], .number (c :: reversed))
      else do
        let text ← NumberText.read? reversed.reverse
        let json ← text.toJson?
        let (tokens, next) ← scanBetween c
        return (.leaf json :: tokens, next)
  | .text reversed =>
      if c = '"' then some ([.text (String.ofList reversed.reverse)], .between)
      else if c = '\\' then some ([], .escape reversed)
      else if c.toNat < 0x20 then none
      else some ([], .text (c :: reversed))
  | .escape reversed => scanEscape reversed c
  | .unicode reversed pending digits code => do
      let value ← Text.hexValue? c
      let code := code * 16 + value
      if digits = 3 then
        let next ← scanCode reversed pending code
        return ([], next)
      else
        return ([], .unicode reversed pending (digits + 1) code)
  | .lowHalf reversed high =>
      if c = '\\' then some ([], .lowMark reversed high) else none
  | .lowMark reversed high =>
      if c = 'u' then some ([], .unicode reversed (some high) 0 0) else none

def scanEnd : Scan -> Option (List Token)
  | .between => some []
  | .word reversed => (wordToken? reversed.reverse).map fun token => [token]
  | .number reversed => do
      let text ← NumberText.read? reversed.reverse
      let json ← text.toJson?
      return [.leaf json]
  | _ => none

/-- The tokens of a text, from a state of the scanner on. -/
def scanFrom (scan : Scan) : List Char -> List Token -> Option (List Token)
  | [], reversed => do
      let last ← scanEnd scan
      return reversed.reverse ++ last
  | c :: rest, reversed =>
      match scanStep scan c with
      | some (tokens, next) => scanFrom next rest (tokens.reverse ++ reversed)
      | none => none

def tokens? (s : String) : Option (List Token) :=
  scanFrom .between s.toList []

end Json
end MixedDomain
