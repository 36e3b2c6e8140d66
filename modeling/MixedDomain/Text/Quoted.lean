import MixedDomain.Text.Printable

/-!
# Quoted text in messages

## Characters, texts, lists of texts

Messages show names between double quotes.  A quote, a backslash and the usual
control characters are escaped by a letter, every other character that is not
printable by its code point in hexadecimal.
-/

namespace MixedDomain
namespace Text

def quoteChar (c : Char) : String :=
  match c with
  | '"' => "\\\""
  | '\\' => "\\\\"
  | '\n' => "\\n"
  | '\r' => "\\r"
  | '\t' => "\\t"
  | '\x00' => "\\0"
  | c =>
      if isPrintable c then
        c.toString
      else
        "\\u\x7b" ++ String.ofList (Nat.toDigits 16 c.toNat) ++ "\x7d"

def quote (s : String) : String :=
  "\"" ++ String.join (s.toList.map quoteChar) ++ "\""

def quoteList (texts : List String) : String :=
  "[" ++ ", ".intercalate (texts.map quote) ++ "]"

end Text
end MixedDomain
