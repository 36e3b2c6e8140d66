import MixedDomain.Value.Kind

/-!
# Errors of values and addresses

## Causes and their wording
-/

namespace MixedDomain

/-- What a literal was meant to be. -/
inductive LiteralKind where
  | bigInteger
  | bigDecimal
  | modelVersion
  deriving DecidableEq, Repr

def LiteralKind.name : LiteralKind -> String
  | .bigInteger => "BIG_INTEGER"
  | .bigDecimal => "BIG_DECIMAL"
  | .modelVersion => "model version"

/-- Why a value or an address cannot be had. -/
inductive ValueError where
  | conversion (source target : Kind)
  | missingKey (key : String)
  | invalidAddress (address reason : String)
  | invalidNumber (kind : LiteralKind) (literal : String)
  deriving DecidableEq, Repr

def ValueError.message : ValueError -> String
  | .conversion source target =>
      "Cannot convert value of type " ++ source.name ++ " to " ++ target.name
  | .missingKey key => "Required key '" ++ key ++ "' is not defined"
  | .invalidAddress address reason => "Invalid address '" ++ address ++ "': " ++ reason
  | .invalidNumber kind literal => "Invalid " ++ kind.name ++ " literal '" ++ literal ++ "'"

end MixedDomain
