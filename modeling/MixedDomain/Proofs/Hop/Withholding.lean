import Mathlib.Data.List.Infix
import MixedDomain.Proofs.Hop.Survival

/-!
# What is withheld

## The description that decides

An address is withheld by the first description on the way to it, its own one
included, that withholds anything.  All of them are found by looking up the
beginnings of the address.

## Operations and resources

This description decides about the operations on a resource and about the resource
itself.  If there is none, the resource is sent, and its operations are left to
its own description.
-/

namespace MixedDomain
namespace Hop

variable {h : Hop} {a : Address} {c : Context}

def firstWithholding? (h : Hop) (a : Address) (c : Context) : Option Withholding :=
  (a.inits.filterMap fun b => (h.description? b).map fun d => d.withholding.decide b c).find?
    fun withholding => withholding ≠ .never

theorem withholding_eq_first (h : Hop) (a : Address) (c : Context) :
    h.withholding a c = (h.firstWithholding? a c).getD .never := by
  rw [withholding, Trie.along_eq_filterMap_inits]
  exact withheldAlong_eq_find? fun b hb => (List.mem_inits b a).mp hb

theorem withholding_of_first {w : Withholding} (hfirst : h.firstWithholding? a c = some w) :
    w ≠ .never ∧ h.withholding a c = w := by
  constructor
  · simpa using List.find?_some hfirst
  · rw [withholding_eq_first, hfirst]
    rfl

theorem withholding_of_none (hfirst : h.firstWithholding? a c = none) :
    h.withholding a c = .never := by
  rw [withholding_eq_first, hfirst]
  rfl

theorem firstWithholding?_eq_some_iff {w : Withholding} (hw : w ≠ .never) :
    h.firstWithholding? a c = some w ↔ h.withholding a c = w := by
  constructor
  · intro hfirst
    exact (withholding_of_first hfirst).2
  · intro hwithheld
    rw [withholding_eq_first] at hwithheld
    cases hfirst : h.firstWithholding? a c with
    | none =>
        rw [hfirst] at hwithheld
        exact absurd hwithheld.symm hw
    | some found =>
        rw [hfirst] at hwithheld
        exact congrArg some hwithheld

/-!
# Operations
-/

/-- The transformer of an operation by the description of the resource itself; without one it is
passed through. -/
def ownTransformer (h : Hop) (a : Address) (operation : Value) : Except ValueError Transformer :=
  match h.description? a with
  | none => .ok .pass
  | some d => (Operation.name operation).map d.transformerOf

theorem transformerAt_eq_own (ha : a ≠ []) (operation : Value) :
    transformerAt a operation (h.descriptions.along a) = h.ownTransformer a operation := by
  rcases Address.exists_eq_child ha with ⟨parent, e, rfl⟩
  have hlength : (parent.child e).length = parent.length + 1 := by
    simp [Address.child]
  rw [transformerAt, ownTransformer, Trie.along_child]
  cases hd : h.description? (parent.child e) with
  | some d =>
      rw [show h.descriptions.get? (parent.child e) = some d from hd]
      simp [hlength]
  | none =>
      rw [show h.descriptions.get? (parent.child e) = none from hd]
      simp only [Option.map_none, Option.toList_none, List.append_nil]
      cases hlast : (h.descriptions.along parent).getLast? with
      | none => rfl
      | some node =>
          have hle := Trie.depth_le_of_mem_along (List.mem_of_getLast? hlast)
          have hne : node.1 ≠ (parent.child e).length := by
            omega
          simp [hne]

theorem run_transformOperation_of_silent (hw : h.withholding a c = .silent) (operation : Value) :
    TransformM.run (h.transformOperation a operation) c = (.ok Outcome.discarded, c) := by
  rw [transformOperation, TransformM.run_get_bind]
  rw [withholding] at hw
  simp only [hw]
  rfl

theorem run_transformOperation_of_rejectAndWarn (hw : h.withholding a c = .rejectAndWarn)
    {operation : Value} {name : String} (hname : Operation.name operation = .ok name) :
    TransformM.run (h.transformOperation a operation) c =
      (.ok (Outcome.rejected operation (rejectedOperationMessage c.target a name)),
        c.reporting [rejectedOperationMessage c.target a name]) := by
  rw [transformOperation, TransformM.run_get_bind]
  rw [withholding] at hw
  simp only [hw, Transformer.rejectOperation, hname]
  rfl

theorem run_transformOperation_of_never (ha : a ≠ []) (hw : h.withholding a c = .never)
    (operation : Value) :
    TransformM.run (h.transformOperation a operation) c = TransformM.run (do
      let transformer ← TransformM.ofValue (h.ownTransformer a operation)
      let outcome ← transformer.run a operation
      TransformM.ofValue (redirect a (h.targetOf a) outcome)) c := by
  rw [transformOperation, TransformM.run_get_bind]
  rw [withholding] at hw
  simp only [hw, transformerAt_eq_own ha]

/-!
# Resources
-/

/-- What is left in the context when the resource at an address is withheld. -/
def afterWithholding (a : Address) : Withholding -> Context -> Context
  | .rejectAndWarn, c => c.reporting [notSentMessage c.target a]
  | _, c => c

/-- The place of a resource is empty in a tree that has only the way to it. -/
theorem taken?_addAlong (hb : h.IsBuiltIn) (ha : a ≠ []) :
    taken? (h.targetOf a) (Resource.empty.addAlong (Address.parent (h.targetOf a))) = none := by
  rcases Address.exists_eq_child ha with ⟨parent, e, rfl⟩
  rw [targetOf_child hb, Address.parent_child, taken?, Resource.navigate?_child,
    Resource.navigate?_addAlong_empty]
  rfl

theorem runOn_placeResource_of_withheld {d : ResourceDescription} {w : Withholding}
    (hd : h.description? a = some d) (hw : d.withholding.decide a c = w) (hwithheld : w ≠ .never)
    (r tree : Resource) :
    PlaceM.runOn (placeResource h a r) tree c = (.ok ((), tree), afterWithholding a w c) := by
  rcases r with ⟨model, children⟩
  have hget : TransformM.run get c = (.ok c, c) := by
    rfl
  simp only [placeResource, hd]
  rw [PlaceM.runOn_bind_of_run hget, hw]
  cases w with
  | never => exact absurd rfl hwithheld
  | silent => rfl
  | rejectAndWarn => rfl

theorem run_transformResource_of_withheld (hb : h.IsBuiltIn) (ha : a ≠ []) {w : Withholding}
    (hw : h.withholding a c = w) (hwithheld : w ≠ .never) (r : Resource) :
    TransformM.run (h.transformResource a r) c = (.ok none, afterWithholding a w c) := by
  rw [withholding_eq_above hb ha] at hw
  rw [transformResource, TransformM.run_get_bind]
  cases habove : withheldAlong a c (h.above a) with
  | silent =>
      rw [habove] at hw
      cases hw
      rfl
  | rejectAndWarn =>
      rw [habove] at hw
      cases hw
      rfl
  | never =>
      rw [habove] at hw
      cases hd : h.description? a with
      | none =>
          rw [hd] at hw
          exact absurd hw.symm hwithheld
      | some d =>
          rw [hd] at hw
          have hplace := runOn_placeResource_of_withheld (c := c) hd hw hwithheld r
            (Resource.empty.addAlong (Address.parent (h.targetOf a)))
          rw [TransformM.run_bind_of_ok hplace]
          dsimp only
          rw [taken?_addAlong hb ha]
          rfl

theorem run_transformResource_ne_none (hb : h.IsBuiltIn) (ha : a ≠ [])
    (hw : h.withholding a c = .never) (r : Resource) (c' : Context) :
    TransformM.run (h.transformResource a r) c ≠ (.ok none, c') := by
  intro hrun
  have hsome := (isSome_of_resourceOnTarget hb ha (resourceOnTarget_of_run hb ha hrun)).mpr hw
  cases hsome

/-!
# Operations and resources alike
-/

end Hop

/-!
# A subsystem with logs

Servers are called hosts on the target.  Logs of servers are rejected with all that is below them,
and caches of servers are dropped.
-/

namespace MailLogs

def server : Address :=
  [Address.subsystemElement "mail", ⟨"server", "smtp"⟩]

def logFile : Address :=
  server ++ [⟨"log", "errors"⟩, ⟨"file", "today"⟩]

def rules : Config.ResourceRules :=
  .node [] [] [] []
    [(⟨⟨"server", "*"⟩, .never, some ⟨"host", "*"⟩⟩,
      .node [] [] [] []
        [(⟨⟨"log", "*"⟩, .rejectAndWarn, none⟩, .empty),
          (⟨⟨"cache", "*"⟩, .silent, none⟩, .empty)] [])] []

def config : Config :=
  { target? := none
    registrations := []
    subsystems := [
      { name := "mail"
        versions := [{ version := ⟨1, 0, 0⟩, resource := rules }]
        chain? := none }] }

def registry : Registry :=
  match config.registry with
  | .ok r => r
  | .error _ => Registry.empty

def declared : ResourceDeclarations :=
  match rules.declare (ResourceDeclarations.ofSubsystem "mail") with
  | .ok d => d
  | .error _ => ResourceDeclarations.ofSubsystem "mail"

/-- The only hop. -/
def hop : Hop :=
  Hop.ofTree declared.describe

def context : Context :=
  Context.start ⟨"legacy-host", ⟨1, 4, 0⟩, [("mail", ⟨1, 0, 0⟩)], .host⟩
    (config.model Resource.empty)

def notSupported : String :=
  "Operation 'clear' against the resource at address "
    ++ "'/subsystem=mail/server=smtp/log=errors/file=today' is not supported by "
    ++ "host 'legacy-host' (model version 1.0.0)"

def notSent : String :=
  "Resource at '/subsystem=mail/server=smtp/log=errors/file=today' is not understood by "
    ++ "host 'legacy-host' and was not sent"

theorem rejectedOperationMessage_clear :
    rejectedOperationMessage context.target logFile "clear" = notSupported := by
  decide +kernel

theorem notSentMessage_logFile : Hop.notSentMessage context.target logFile = notSent := by
  decide +kernel

theorem registry_config : config.registry = .ok registry := by
  rfl

theorem holds_hop : registry.Holds hop :=
  ⟨"mail", ⟨1, 0, 0⟩, [hop], rfl, List.mem_singleton_self hop⟩

end MailLogs

end MixedDomain
