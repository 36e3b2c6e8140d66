/-!
# Templates

## Substitution

Every occurrence of a mark in a template is replaced by a text, from the left
and without looking at what has been put in.
-/

namespace MixedDomain
namespace Text

/-- Replaces every `mark`; the first `skip` characters belong to a mark that has been replaced. -/
def substituteFrom (mark text : List Char) : Nat -> List Char -> List Char
  | _, [] => []
  | skip + 1, _ :: rest => substituteFrom mark text skip rest
  | 0, c :: rest =>
      if mark.isPrefixOf (c :: rest) then
        text ++ substituteFrom mark text (mark.length - 1) rest
      else
        c :: substituteFrom mark text 0 rest

def substitute (mark text template : String) : String :=
  String.ofList (substituteFrom mark.toList text.toList 0 template.toList)

end Text
end MixedDomain
