import MixedDomain.Binary64.Shortest
import MixedDomain.Json.Basic
import MixedDomain.Version

/-!
# Versions in JSON

## Strings and numbers

A version is a string.  A number is taken for the string of its decimal digits,
so that a version of two parts may be written without quotes.
-/

namespace MixedDomain
namespace ModelVersion

def ofJson? : Json -> Option ModelVersion
  | .string s => read? s
  | .int i => read? (toString i)
  | .double d => read? d.scientific
  | _ => none

def toJson (v : ModelVersion) : Json :=
  .string v.text

end ModelVersion
end MixedDomain
