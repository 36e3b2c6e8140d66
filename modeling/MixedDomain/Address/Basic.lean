/-!
# Addresses of resources

## Elements

An element names a kind of child and one child of that kind.  The element whose
value is `*` stands for every child of its kind.

## Addresses

An address is the list of elements from the root to a resource; the root has the
empty address.
-/

namespace MixedDomain

/-- One step of an address: a kind of child and a name. -/
structure PathElement where
  key : String
  value : String
  deriving DecidableEq, Inhabited, Repr

namespace PathElement

def wildcardValue : String :=
  "*"

def wildcard (key : String) : PathElement :=
  ⟨key, wildcardValue⟩

def isWildcard (e : PathElement) : Bool :=
  e.value == wildcardValue

def covers (e other : PathElement) : Bool :=
  e.key == other.key && (e.isWildcard || e.value == other.value)

def withValue (e : PathElement) (value : String) : PathElement :=
  { e with value := value }

def compareText (s t : String) : Ordering :=
  if s < t then .lt else if s = t then .eq else .gt

/-- The order of elements: by key, then by value. -/
def compare (a b : PathElement) : Ordering :=
  (compareText a.key b.key).then (compareText a.value b.value)

theorem covers_self (e : PathElement) : e.covers e = true := by
  simp [covers]

theorem covers_wildcard (e : PathElement) : (wildcard e.key).covers e = true := by
  simp [covers, wildcard, isWildcard]

end PathElement

abbrev Address :=
  List PathElement

namespace Address

def root : Address :=
  []

def child (a : Address) (e : PathElement) : Address :=
  a ++ [e]

/-- The address of the parent; the root is its own parent. -/
def parent (a : Address) : Address :=
  a.dropLast

/-- The elements from `start` up to but not including `stop`, as far as there are any. -/
def slice (a : Address) (start stop : Nat) : Address :=
  (a.take stop).drop start

def suffix (a : Address) (start : Nat) : Address :=
  a.drop start

def subsystemKey : String :=
  "subsystem"

def subsystemElement (name : String) : PathElement :=
  ⟨subsystemKey, name⟩

def subsystem? : Address -> Option String
  | [] => none
  | e :: _ => if e.key = subsystemKey then some e.value else none

def fits : Address -> Address -> Bool
  | [], [] => true
  | e :: rest, p :: pattern => p.covers e && fits rest pattern
  | _, _ => false

/-- The order of addresses: element by element, a shorter one first. -/
def compare : Address -> Address -> Ordering
  | [], [] => .eq
  | [], _ :: _ => .lt
  | _ :: _, [] => .gt
  | a :: as, b :: bs => (PathElement.compare a b).then (compare as bs)

theorem slice_zero (a : Address) (stop : Nat) : a.slice 0 stop = a.take stop := by
  simp [slice]

theorem parent_child (a : Address) (e : PathElement) : (a.child e).parent = a := by
  simp [parent, child]

theorem append_cons_eq_child (a : Address) (e : PathElement) (rest : Address) :
    a ++ e :: rest = a.child e ++ rest := by
  simp [child]

end Address
end MixedDomain
