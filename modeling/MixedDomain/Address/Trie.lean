import MixedDomain.Address.ElementMap

/-!
# Configuration by address pattern

## The trie

A node may hold a configuration and has children at elements, of which the
wildcard is one.  Configurations are stored at patterns; looking an address up
takes, step by step, the child at the element itself if there is one and the
wildcard child of its key otherwise.  A step that was taken is never taken back.
-/

namespace MixedDomain

/-- A node of configurations by address pattern. -/
structure Trie (config : Type) where node ::
  here? : Option config
  /-- The nodes below, at their elements. -/
  children : List (PathElement × Trie config)

namespace Trie

variable {config : Type}

/-- The trie without configurations. -/
def empty : Trie config :=
  .node none []

instance : Inhabited (Trie config) :=
  ⟨empty⟩

/-- The child that stands for an element: the one at the element itself before the wildcard. -/
def child? (e : PathElement) (t : Trie config) : Option (Trie config) :=
  match ElementMap.get? e t.children with
  | some found => some found
  | none => ElementMap.get? (PathElement.wildcard e.key) t.children

def node? : Address -> Trie config -> Option (Trie config)
  | [], t => some t
  | e :: rest, t => (t.child? e).bind (node? rest)

def get? (a : Address) (t : Trie config) : Option config :=
  (t.node? a).bind here?

/-- The node stored at a pattern, with wildcards taken literally. -/
def stored? : Address -> Trie config -> Option (Trie config)
  | [], t => some t
  | e :: rest, t => (ElementMap.get? e t.children).bind (stored? rest)

def storedAt? (pattern : Address) (t : Trie config) : Option config :=
  (t.stored? pattern).bind here?

/-- Changes the configuration stored at a pattern; the nodes on the way are made on demand. -/
def modify (f : Option config -> Option config) : Address -> Trie config -> Trie config
  | [], t => { t with here? := f t.here? }
  | e :: rest, t =>
      let next := (ElementMap.get? e t.children).getD empty
      { t with children := ElementMap.insert e (modify f rest next) t.children }

def insert (pattern : Address) (c : config) (t : Trie config) : Trie config :=
  t.modify (fun _ => some c) pattern

/-- Stores a configuration at a pattern, and gives back the one that it replaces. -/
def register (pattern : Address) (c : config) (t : Trie config) : Option config × Trie config :=
  (t.storedAt? pattern, t.insert pattern c)

def alongFrom (depth : Nat) : Address -> Trie config -> List (Nat × config)
  | [], _ => []
  | e :: rest, t =>
      match t.child? e with
      | none => []
      | some next =>
          (next.here?.map fun c => (depth + 1, c)).toList ++ alongFrom (depth + 1) rest next

/-- The configurations on the way from the root to an address, with their depths. -/
def along (a : Address) (t : Trie config) : List (Nat × config) :=
  (t.here?.map fun c => (0, c)).toList ++ alongFrom 0 a t

mutual

def isEmpty : Trie config -> Bool
  | .node here children => here.isNone && allEmpty children

def allEmpty : List (PathElement × Trie config) -> Bool
  | [] => true
  | (_, t) :: rest => isEmpty t && allEmpty rest

end

theorem node?_nil (t : Trie config) : t.node? [] = some t := by
  rfl

theorem node?_cons (e : PathElement) (rest : Address) (t : Trie config) :
    t.node? (e :: rest) = (t.child? e).bind (node? rest) := by
  rfl

theorem node?_append (a b : Address) (t : Trie config) :
    t.node? (a ++ b) = (t.node? a).bind (node? b) := by
  induction a generalizing t with
  | nil =>
      rfl
  | cons e rest ih =>
      cases h : t.child? e with
      | none => simp [node?, h]
      | some next => simp [node?, h, ih]

end Trie
end MixedDomain
