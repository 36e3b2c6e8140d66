import MixedDomain.Description.Declarations

/-!
# Chains of versions

## Hops between versions

A subsystem that changed over several versions is described hop by hop, each from
one version to an older one.  A target is reached from the current version by
following the hops; from each version there is at most one.
-/

namespace MixedDomain

/-- What is declared about one hop. -/
structure HopDeclarations where
  source : ModelVersion
  target : ModelVersion
  resource : ResourceDeclarations

/-- The hops of a subsystem, in the order of their versions. -/
structure ChainDeclarations where
  subsystem : String
  current : ModelVersion
  hops : List HopDeclarations

namespace ChainDeclarations

def empty (subsystem : String) (current : ModelVersion) : ChainDeclarations :=
  ⟨subsystem, current, []⟩

def isBetween (source target : ModelVersion) (hop : HopDeclarations) : Bool :=
  hop.source == source && hop.target == target

def hop (source target : ModelVersion) (chain : ChainDeclarations) : ResourceDeclarations :=
  match chain.hops.find? (isBetween source target) with
  | some found => found.resource
  | none => ResourceDeclarations.ofSubsystem chain.subsystem

/-- Replaces a hop, or puts it where the order of versions wants it. -/
def insertHop (new : HopDeclarations) : List HopDeclarations -> List HopDeclarations
  | [] => [new]
  | old :: rest =>
      match (new.source.compare old.source).then (new.target.compare old.target) with
      | .lt => new :: old :: rest
      | .eq => new :: rest
      | .gt => old :: insertHop new rest

def withHop (source target : ModelVersion) (resource : ResourceDeclarations)
    (chain : ChainDeclarations) : ChainDeclarations :=
  { chain with hops := insertHop ⟨source, target, resource⟩ chain.hops }

/-- A step down: the version that it starts from, the one that it leads to, and its descriptions. -/
structure Step where
  source : ModelVersion
  target : ModelVersion
  tree : DescriptionTree

def stepFrom? (source : ModelVersion) (steps : List Step) : Option Step :=
  steps.find? fun step => step.source == source

/-- The steps of hops, each of which must lead down, and no two of which start together. -/
def steps (subsystem : String) : List HopDeclarations -> List Step ->
    Except DescriptionError (List Step)
  | [], found => .ok found
  | hop :: rest, found =>
      if !hop.target.older hop.source then
        .error (.invalid ("Hop " ++ hop.source.text ++ " -> " ++ hop.target.text
          ++ " of subsystem '" ++ subsystem ++ "' does not go to an older version"))
      else if (stepFrom? hop.source found).isSome then
        .error (.invalid ("Subsystem '" ++ subsystem ++ "' has more than one hop from "
          ++ hop.source.text))
      else
        steps subsystem rest (found ++ [⟨hop.source, hop.target, hop.resource.describe⟩])

/-- The trees on the way down from a version to a target.  There are at most as many steps as
hops. -/
def follow? (steps : List Step) (target : ModelVersion) :
    Nat -> ModelVersion -> Except DescriptionError (List DescriptionTree)
  | fuel, version =>
      if version = target then
        .ok []
      else
        match fuel, stepFrom? version steps with
        | fuel + 1, some step =>
            if step.target.older target then
              .error (.brokenChain version target)
            else
              (follow? steps target fuel step.target).map fun trees => step.tree :: trees
        | _, _ => .error (.brokenChain version target)

def describe (targets : List ModelVersion) (chain : ChainDeclarations) :
    Except DescriptionError (List (ModelVersion × List DescriptionTree)) := do
  let found ← steps chain.subsystem chain.hops []
  targets.mapM fun target =>
    (follow? found target found.length chain.current).map fun trees => (target, trees)

end ChainDeclarations
end MixedDomain
