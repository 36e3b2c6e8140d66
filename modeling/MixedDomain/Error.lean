import MixedDomain.Text.Quoted
import MixedDomain.Value.Error

/-!
# Errors of transformations

## Causes and their wording

A discarded or converted attribute is no error, and neither is a rejection, which
is part of the outcome.  What remains is listed here.
-/

namespace MixedDomain

/-- Why a transformation cannot be carried out. -/
inductive TransformError where
  | failed (message : String)
  | immutable (address action : String)
  | notUnderstood (attributes : List String) (address host subsystem version : String)
  | value (error : ValueError)
  deriving DecidableEq, Repr

def TransformError.message : TransformError -> String
  | .failed message => "Operation failed: " ++ message
  | .immutable address action =>
      "Cannot " ++ action ++ " on immutable resource at '" ++ address ++ "'"
  | .notUnderstood attributes address host subsystem version =>
      "Attributes " ++ Text.quoteList attributes ++ " at '" ++ address
        ++ "' are not understood by host '" ++ host ++ "' (subsystem '" ++ subsystem
        ++ "' version " ++ version ++ ")"
  | .value error => "Value error: " ++ error.message

end MixedDomain
