import MixedDomain.Proofs.Hop.Failing

/-!
# What is said of resources

## In the order of the addresses

The warnings of a transformation are those of its resources, one after the other.
A resource is spoken of only if all above it is sent: it is not sent, or some of its
attributes are rejected, or new attributes of it are defined.
-/

namespace MixedDomain
namespace Hop

variable {h : Hop} {a : Address} {c c' : Context} {r : Resource} {out? : Option Resource}

end Hop

end MixedDomain
