import MixedDomain.Config.Printer
import MixedDomain.Main
import MixedDomain.Proofs.Config.Adding
import MixedDomain.Proofs.Hop.Survival
import MixedDomain.Proofs.Registry.Addresses
import MixedDomain.Proofs.Registry.Composite
import MixedDomain.Proofs.Registry.Frame
import MixedDomain.Proofs.Resource.Encoding
import MixedDomain.Proofs.Attribute.Converting
import MixedDomain.Proofs.Attribute.Rejecting
import MixedDomain.Proofs.Attribute.Writing
import MixedDomain.Proofs.Hop.Writing
import MixedDomain.Proofs.Attribute.Models
import MixedDomain.Proofs.Description.Ending
import MixedDomain.Proofs.Hop.Reaching
import MixedDomain.Proofs.Hop.Ending
import MixedDomain.Proofs.Hop.Failing
import MixedDomain.Proofs.Hop.Warning
import MixedDomain.Proofs.Answering
import MixedDomain.Proofs.Registry.Answers
import MixedDomain.Proofs.Succeeding
import MixedDomain.Proofs.Transformer.Succeeding
import MixedDomain.Proofs.Config.Suiting
import MixedDomain.Proofs.Registry.Succeeding
import MixedDomain.Proofs.Registry.Nested
import MixedDomain.Proofs.Address.Lookup
import MixedDomain.Proofs.Address.Managing
import MixedDomain.Proofs.Description.Chaining
import MixedDomain.Proofs.Registry.Chains
import MixedDomain.Proofs.Attribute.Grouping
import MixedDomain.Proofs.Attribute.Phases
import MixedDomain.Proofs.Value.Encoding
import MixedDomain.Proofs.Hop.Walking
import MixedDomain.Proofs.Config.Validating
import MixedDomain.Proofs.Guards
import MixedDomain.Proofs.Resource.Views
import MixedDomain.Proofs.Value.Equality
import MixedDomain.Proofs.Resource.Canonical
import MixedDomain.Proofs.Deciding
import MixedDomain.Proofs.Attribute.Comparing
import MixedDomain.Proofs.Attribute.Collecting
import MixedDomain.Proofs.Value.Searching
import MixedDomain.Proofs.Value.Decimal
