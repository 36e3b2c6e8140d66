import MixedDomain.Address.Basic

/-!
# Maps from path elements

## Sorted lists

A finite map from elements to things, kept as a list of pairs in the order of
the elements: by key, and by value under one key.
-/

namespace MixedDomain
namespace ElementMap

variable {item : Type}

def get? (e : PathElement) : List (PathElement × item) -> Option item
  | [] => none
  | (d, x) :: rest => if d = e then some x else get? e rest

/-- Puts a thing at an element, in the order of elements. -/
def insert (e : PathElement) (x : item) : List (PathElement × item) -> List (PathElement × item)
  | [] => [(e, x)]
  | (d, y) :: rest =>
      match e.compare d with
      | .lt => (e, x) :: (d, y) :: rest
      | .eq => (e, x) :: rest
      | .gt => (d, y) :: insert e x rest

def erase (e : PathElement) : List (PathElement × item) -> List (PathElement × item)
  | [] => []
  | (d, x) :: rest => if d = e then rest else (d, x) :: erase e rest

def update (e : PathElement) (x : item) : List (PathElement × item) -> List (PathElement × item)
  | [] => []
  | (d, y) :: rest => if d = e then (d, x) :: rest else (d, y) :: update e x rest

def elements (map : List (PathElement × item)) : List PathElement :=
  map.map Prod.fst

def kinds (map : List (PathElement × item)) : List String :=
  ((elements map).map PathElement.key).eraseDups

def ofKind (key : String) (map : List (PathElement × item)) : List (PathElement × item) :=
  map.filter fun pair => pair.1.key == key

end ElementMap
end MixedDomain
