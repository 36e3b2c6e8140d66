import MixedDomain.Value.Basic

/-!
# Expressions in values

## In text

A text holds an expression when `$` and an opening brace follow one another
somewhere and a closing brace comes later, with anything between.

## In values

A value holds an expression when the text of some string or expression in it
does: below lists, objects and properties, but not in the names of entries.
-/

namespace MixedDomain

def openingBrace : Char :=
  '\x7b'

def closingBrace : Char :=
  '\x7d'

def holdsExpression : List Char -> Bool
  | [] => false
  | c :: rest =>
      (c == '$' && rest.head? == some openingBrace && (rest.drop 1).contains closingBrace)
        || holdsExpression rest

namespace Value

mutual

def hasExpression : Value -> Bool
  | .string s => holdsExpression s.toList
  | .expression s => holdsExpression s.toList
  | .list items => itemHasExpression items
  | .object entries => entryHasExpression entries
  | .property _ value => hasExpression value
  | _ => false

def itemHasExpression : List Value -> Bool
  | [] => false
  | item :: rest => hasExpression item || itemHasExpression rest

def entryHasExpression : List (String × Value) -> Bool
  | [] => false
  | (_, value) :: rest => hasExpression value || entryHasExpression rest

end

end Value

/-- When a value has to be transformed at all. -/
inductive Requirement where
  | expressions
  | list (element : Requirement)
  /-- Some of the named entries requires it; one that is missing counts as undefined. -/
  | fields (fields : List (String × Requirement))

namespace Requirement

mutual

def holds : Requirement -> Value -> Bool
  | .expressions, v => v.hasExpression
  | .list element, v =>
      match v with
      | .list items => items.any fun item => holds element item
      | _ => false
  | .fields named, v => someFieldHolds named v

def someFieldHolds : List (String × Requirement) -> Value -> Bool
  | [], _ => false
  | (field, requirement) :: rest, v =>
      holds requirement (v.getOrUndefined field) || someFieldHolds rest v

end

end Requirement
end MixedDomain
