import MixedDomain.Binary64.Shortest
import MixedDomain.Json.Basic

/-!
# Writing JSON

## On one line, or indented

`compact` writes no blanks at all; `pretty` puts every item and member on a line
of its own, indented by two spaces per level.  Strings escape only the quote, the
backslash and the control characters; numbers that are no integers keep a point
or an exponent.
-/

namespace MixedDomain
namespace Json

/-- A digit of a hexadecimal number, in small letters. -/
def hexDigit (n : Nat) : Char :=
  Nat.digitChar (n % 16)

def escapeChar (c : Char) : String :=
  match c with
  | '"' => "\\\""
  | '\\' => "\\\\"
  | '\n' => "\\n"
  | '\r' => "\\r"
  | '\t' => "\\t"
  | '\x08' => "\\b"
  | '\x0c' => "\\f"
  | c =>
      if c.toNat < 0x20 then
        "\\u00" ++ String.ofList [hexDigit (c.toNat / 16), hexDigit c.toNat]
      else
        c.toString

def quoteText (s : String) : String :=
  "\"" ++ String.join (s.toList.map escapeChar) ++ "\""

/-- A binary number; the numbers that JSON cannot express are strings. -/
def doubleText (d : Binary64) : String :=
  if d.isFinite then d.scientific else quoteText d.plain

mutual

/-- A document without blanks. -/
def compact : Json -> String
  | .null => "null"
  | .bool b => if b then "true" else "false"
  | .int i => toString i
  | .double d => doubleText d
  | .string s => quoteText s
  | .array items => "[" ++ compactItems true items ++ "]"
  | .object members => "\x7b" ++ compactMembers true members ++ "\x7d"

def compactItems (first : Bool) : List Json -> String
  | [] => ""
  | item :: rest =>
      (if first then "" else ",") ++ compact item ++ compactItems false rest

def compactMembers (first : Bool) : List (String × Json) -> String
  | [] => ""
  | (key, value) :: rest =>
      (if first then "" else ",") ++ quoteText key ++ ":" ++ compact value
        ++ compactMembers false rest

end

def newline (level : Nat) : String :=
  "\n" ++ String.ofList (List.replicate (2 * level) ' ')

mutual

/-- A document on several lines, at a level of nesting. -/
def prettyAt (level : Nat) : Json -> String
  | .array [] => "[]"
  | .array (item :: rest) =>
      "[" ++ prettyItems (level + 1) true (item :: rest) ++ newline level ++ "]"
  | .object [] => "\x7b\x7d"
  | .object (member :: rest) =>
      "\x7b" ++ prettyMembers (level + 1) true (member :: rest) ++ newline level ++ "\x7d"
  | .null => compact .null
  | .bool b => compact (.bool b)
  | .int i => compact (.int i)
  | .double d => compact (.double d)
  | .string s => compact (.string s)

def prettyItems (level : Nat) (first : Bool) : List Json -> String
  | [] => ""
  | item :: rest =>
      (if first then "" else ",") ++ newline level ++ prettyAt level item
        ++ prettyItems level false rest

def prettyMembers (level : Nat) (first : Bool) : List (String × Json) -> String
  | [] => ""
  | (key, value) :: rest =>
      (if first then "" else ",") ++ newline level ++ quoteText key ++ ": "
        ++ prettyAt level value ++ prettyMembers level false rest

end

def pretty (json : Json) : String :=
  prettyAt 0 json

end Json
end MixedDomain
