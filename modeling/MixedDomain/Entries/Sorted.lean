import MixedDomain.Entries

/-!
# Entries in the order of their names

## Insertion

Lists of pairs that are kept in the order of the names, character by character.
Looking up and removing work as for entries in order of insertion.
-/

namespace MixedDomain
namespace Entries

variable {item : Type}

/-- Replaces the thing under a name, or puts it where the order of names wants it. -/
def insertSorted (key : String) (x : item) : List (String × item) -> List (String × item)
  | [] => [(key, x)]
  | (k, y) :: rest =>
      if key < k then (key, x) :: (k, y) :: rest
      else if key = k then (key, x) :: rest
      else (k, y) :: insertSorted key x rest

/-- Sorts pairs by name; of two pairs of one name the later one stays. -/
def sorted (pairs : List (String × item)) : List (String × item) :=
  pairs.foldl (fun entries pair => insertSorted pair.1 pair.2 entries) []

end Entries
end MixedDomain
