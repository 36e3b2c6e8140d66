import MixedDomain.Description.Error

/-!
# Errors of configurations

## Causes and their wording

A configuration may be unreadable, malformed or contradictory.
-/

namespace MixedDomain

/-- Why there is no configuration, or none that can be used. -/
inductive ConfigError where
  | unreadable
  | malformed
  | declaration (error : DescriptionError)
  | invalid (message : String)
  deriving DecidableEq, Repr

def ConfigError.message : ConfigError -> String
  | .unreadable => "Failed to read the configuration"
  | .malformed => "Failed to parse the configuration"
  | .declaration error => "Invalid transformer declaration: " ++ error.message
  | .invalid message => "Invalid configuration: " ++ message

end MixedDomain
