import MixedDomain.Proofs.Hop.Reporting
import MixedDomain.Proofs.Hop.Withholding
import MixedDomain.Proofs.Registry.Operations

/-!
# The context after transformations

## Resources

A resource goes through hops that only report, and the root is transformed child by
child.  Hence both only report, as operations do.

## What is left

Whether a transformation ends with a result or with an error, the context is as it
was before, apart from further warnings behind those that there were.
-/

namespace MixedDomain

open TransformM

namespace Registry

variable {r : Registry}

theorem reports_transformByHops {hops : List Hop} (hb : ∀ hop ∈ hops, hop.IsBuiltIn) (a : Address)
    (resource : Resource) : Reports (transformByHops hops a resource) := by
  induction hops generalizing a resource with
  | nil =>
      exact reports_pure _
  | cons hop rest ih =>
      apply reports_bind (Hop.reports_transformResource (hb hop List.mem_cons_self) a resource)
      intro out?
      cases out? with
      | none => exact reports_pure none
      | some out =>
          exact ih (fun other hother => hb other (List.mem_cons_of_mem hop hother)) _ out

theorem reports_transformResource (hr : r.IsBuiltIn) (a : Address) (resource : Resource) :
    Reports (r.transformResource a resource) := by
  apply reports_get_bind
  · intro c
    rfl
  · intro c
    cases hhops : r.hops? c.target a with
    | none => exact reports_pure _
    | some hops => exact reports_transformByHops (hr.of_hops? hhops) a resource

theorem reports_transformChildren (hr : r.IsBuiltIn) (children : List (PathElement × Resource)) :
    Reports (r.transformChildren children) := by
  induction children with
  | nil =>
      exact reports_pure []
  | cons pair rest ih =>
      have hothers : forall transformed : Option Resource, Reports (do
          let others ← r.transformChildren rest
          return (transformed.map fun child => (pair.1, child)).toList ++ others) :=
        fun _ => reports_bind ih fun _ => reports_pure _
      apply reports_ite
      · exact reports_bind (reports_transformResource hr [pair.1] pair.2) hothers
      · exact reports_bind (reports_pure _) hothers

theorem reports_transformRoot (hr : r.IsBuiltIn) (root : Resource) :
    Reports (r.transformRoot root) :=
  reports_bind (reports_transformChildren hr root.children) fun _ => reports_pure _

end Registry

/-!
# What is left in the context
-/

/-- Whether a context is as another one, apart from further warnings at the end. -/
structure Context.KeptIn (before after : Context) : Prop where
  target : after.target = before.target
  model : after.model = before.model
  processKind : after.processKind = before.processKind
  runningMode : after.runningMode = before.runningMode
  current : after.current = before.current
  isProtected : after.isProtected = before.isProtected
  attachments : after.attachments = before.attachments
  warnings : before.warnings <+: after.warnings

theorem TransformM.Reports.keptIn {result : Type} {m : TransformM result} (h : Reports m)
    (c : Context) : c.KeptIn (run m c).2 := by
  rw [h c]
  constructor
  case warnings => exact List.prefix_append _ _
  all_goals rfl

namespace Registry

/-- For every registry of a configuration and every context: transforming an operation, however its
steps are nested, a resource or the root leaves the context as it was, apart from further warnings,
whatever it ends with. -/
theorem keptIn_transform {config : Config} {registry : Registry}
    (hregistry : config.registry = .ok registry) (c : Context) :
    (forall operation, c.KeptIn (run (registry.transformOperation operation) c).2) ∧
    (forall a resource, c.KeptIn (run (registry.transformResource a resource) c).2) ∧
    (forall root, c.KeptIn (run (registry.transformRoot root) c).2) := by
  have hr := Config.isBuiltIn_registry hregistry
  refine ⟨?operations, ?resources, ?roots⟩
  case operations =>
    intro operation
    exact (reportsWith_transformOperation hr operation).1.keptIn c
  case resources =>
    intro a resource
    exact (reports_transformResource hr a resource).keptIn c
  case roots =>
    intro root
    exact (reports_transformRoot hr root).keptIn c

end Registry

/-!
# A composite operation that fails

The first step is rejected with a warning, and the second one has no name.
-/

namespace MailLogs

def halfNamed : Value :=
  .object [(Operation.nameKey, .string Operation.composite),
    (Operation.stepsKey, .list [Operation.create "clear" logFile, .emptyObject])]

def busy : Context :=
  { context with
    current := server
    isProtected := true
    attachments := [("owner", .string "mail")]
    warnings := ["The host is old"] }

end MailLogs

open MailLogs in
theorem Registry.keptIn_transform_halfNamed : config.registry = .ok registry ∧
    (run (registry.transformOperation halfNamed) busy).1 =
      .error (.value (.missingKey Operation.nameKey)) ∧
    (run (registry.transformOperation halfNamed) busy).2.warnings =
      ["The host is old", rejectedOperationMessage context.target logFile "clear"] ∧
    busy.KeptIn (run (registry.transformOperation halfNamed) busy).2 :=
  ⟨registry_config, rfl, rfl, (Registry.keptIn_transform registry_config busy).1 halfNamed⟩

end MixedDomain
