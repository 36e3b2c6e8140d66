import MixedDomain.Version

/-!
# Errors of descriptions

## Causes and their wording

Contradictory declarations are reported where they are made, never when something
is transformed.
-/

namespace MixedDomain

/-- Why a declaration is refused. -/
inductive DescriptionError where
  /-- An attribute has a new name already. -/
  | duplicateRename (path name existing : String)
  /-- A child has been declared already. -/
  | duplicateChild (path child : String)
  | unknownField (path name field : String)
  /-- An operation has an override already. -/
  | duplicateOverride (path operation : String)
  | brokenChain (start target : ModelVersion)
  | invalid (message : String)
  deriving DecidableEq, Repr

def DescriptionError.message : DescriptionError -> String
  | .duplicateRename path name existing =>
      "Attribute '" ++ name ++ "' at '" ++ path ++ "' is already renamed to '" ++ existing ++ "'"
  | .duplicateChild path child =>
      "Child '" ++ child ++ "' is already registered under '" ++ path ++ "'"
  | .unknownField path name field =>
      "Attribute '" ++ name ++ "' at '" ++ path ++ "' has no declared field '" ++ field ++ "'"
  | .duplicateOverride path operation =>
      "Operation '" ++ operation ++ "' at '" ++ path ++ "' already has an override"
  | .brokenChain start target =>
      "No transformation chain from " ++ start.text ++ " to " ++ target.text
  | .invalid message => "Invalid description: " ++ message

end MixedDomain
