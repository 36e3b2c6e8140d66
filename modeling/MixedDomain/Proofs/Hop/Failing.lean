import MixedDomain.Proofs.Hop.Ending

/-!
# Resources that cannot be sent

## New attributes

Where all models are objects or undefined, the rules about attributes always have a
result.  What is left is a refusal: a target that says which resources it ignores is
never sent new attributes that are defined.

## The first of them

Such a target is told of the first resource, in the order of the addresses, that has
defined new attributes, and of all of these.
-/

namespace MixedDomain

theorem ResourceDescription.failure?_of_isModel {d : ResourceDescription} (hd : d.IsBuiltIn)
    (a : Address) {model : Value} (hmodel : model.IsModel) (c : Context) :
    d.failure? a model c = Placement.refusal? c.target a (d.definedNew a model c) := by
  rcases d.run_transformModel_of_isModel hd a c hmodel with ⟨v, hv⟩
  rw [failure?, hv]

namespace Hop

variable {h : Hop} {a : Address} {c : Context} {x : Address × Value} {r : Resource}
  {error : TransformError}

def definedNewAt (h : Hop) (c : Context) (x : Address × Value) : List String :=
  ((h.description? x.1).map fun d => d.definedNew x.1 x.2 c).getD []

def LeavesNew (h : Hop) (c : Context) (x : Address × Value) : Prop :=
  h.reaches c x.1 = true ∧ h.definedNewAt c x ≠ []

theorem failureAt?_of_isModel (hb : h.IsBuiltIn) (hmodel : x.2.IsModel) :
    h.failureAt? c x =
      if h.reaches c x.1 then Placement.refusal? c.target x.1 (h.definedNewAt c x) else none := by
  rw [failureAt?, definedNewAt]
  cases hd : h.description? x.1 with
  | none => rfl
  | some d =>
      have hbuilt := isBuiltIn_of_description? hb (ne_nil_of_description? hb hd) hd
      rw [Option.bind_some, ResourceDescription.failure?_of_isModel hbuilt _ hmodel]
      rfl

theorem refusal?_eq_some_iff {t : Target} {defined : List String} :
    Placement.refusal? t a defined = some error ↔
      t.managesIgnored = true ∧ defined ≠ [] ∧
        error = .notUnderstood defined a.text t.hostName (Placement.subsystemName a)
          (Placement.subsystemVersion t a).text := by
  rw [Placement.refusal?]
  cases hdefined : defined with
  | nil => simp
  | cons name rest => cases hmanages : t.managesIgnored <;> simp [eq_comm]

theorem failureAt?_eq_some_iff (hb : h.IsBuiltIn) (hmodel : x.2.IsModel) :
    h.failureAt? c x = some error ↔
      c.target.managesIgnored = true ∧ h.LeavesNew c x ∧
        error = .notUnderstood (h.definedNewAt c x) x.1.text c.target.hostName
          (Placement.subsystemName x.1) (Placement.subsystemVersion c.target x.1).text := by
  rw [failureAt?_of_isModel hb hmodel, LeavesNew]
  cases hreached : h.reaches c x.1 with
  | false => simp
  | true => simp [refusal?_eq_some_iff]

theorem isSome_failureAt?_iff (hb : h.IsBuiltIn) (hmodel : x.2.IsModel) :
    (h.failureAt? c x).isSome ↔ c.target.managesIgnored = true ∧ h.LeavesNew c x := by
  rw [Option.isSome_iff_exists]
  constructor
  · rintro ⟨error, hfails⟩
    rcases (failureAt?_eq_some_iff hb hmodel).mp hfails with ⟨hmanages, hleaves, _⟩
    exact ⟨hmanages, hleaves⟩
  · rintro ⟨hmanages, hleaves⟩
    exact ⟨_, (failureAt?_eq_some_iff hb hmodel).mpr ⟨hmanages, hleaves, rfl⟩⟩

theorem TransformEndsAs.error_iff {failure? : Option TransformError} {warnings : List String}
    (hends : h.TransformEndsAs a r c failure? warnings) :
    (TransformM.run (h.transformResource a r) c).1 = .error error ↔ failure? = some error := by
  cases failure? with
  | none =>
      rcases hends with ⟨out?, hrun⟩
      simp [hrun]
  | some e =>
      have hfails : (TransformM.run (h.transformResource a r) c).1 = .error e := hends
      simp [hfails]

/-- For every hop that a configuration registers, a resource whose models are all objects or
undefined cannot be transformed exactly if the core version of the target is at least 1.4.0 and some
reached resource has new attributes that are defined after its rules.  The error is then about the
first of these resources in the order of the addresses, and names just these attributes of it. -/
theorem transformResource_error_iff {config : Config} {registry : Registry}
    (hregistry : config.registry = .ok registry) (hholds : registry.Holds h) (ha : a ≠ [])
    (hordered : r.Ordered) (hmodels : ∀ x ∈ r.listing a, x.2.IsModel) :
    ((exists error, (TransformM.run (h.transformResource a r) c).1 = .error error) ↔
      c.target.coreVersion.older ⟨1, 4, 0⟩ = false ∧ exists x, x ∈ r.listing a ∧ h.LeavesNew c x) ∧
    forall error, (TransformM.run (h.transformResource a r) c).1 = .error error ->
      exists x, x ∈ r.listing a ∧ h.LeavesNew c x ∧
        (∀ y ∈ r.listing a, y ≠ x -> h.LeavesNew c y -> x.1.compare y.1 = .lt) ∧
        error = .notUnderstood (h.definedNewAt c x) x.1.text c.target.hostName
          (Placement.subsystemName x.1) (Placement.subsystemVersion c.target x.1).text := by
  have hb := (Config.isBuiltIn_registry hregistry).of_holds hholds
  have hends := transformEndsAs (c := c) hb ha fun x hx => (hmodels x hx).hasDistinctNames
  have hmanages : c.target.managesIgnored = true ↔ c.target.coreVersion.older ⟨1, 4, 0⟩ = false := by
    simp [Target.managesIgnored, Target.managesIgnoredFrom]
  rw [← hmanages]
  constructor
  · simp only [hends.error_iff]
    rw [← Option.isSome_iff_exists, List.findSome?_isSome_iff]
    constructor
    · rintro ⟨x, hx, hsome⟩
      rcases (isSome_failureAt?_iff hb (hmodels x hx)).mp hsome with ⟨hmanaged, hleaves⟩
      exact ⟨hmanaged, x, hx, hleaves⟩
    · rintro ⟨hmanaged, x, hx, hleaves⟩
      exact ⟨x, hx, (isSome_failureAt?_iff hb (hmodels x hx)).mpr ⟨hmanaged, hleaves⟩⟩
  · intro error hfails
    have hfirst := hends.error_iff.mp hfails
    rcases List.exists_first_of_findSome? (Resource.pairwise_listing r hordered a) hfirst with
      ⟨x, hx, herror, hbefore⟩
    rcases (failureAt?_eq_some_iff hb (hmodels x hx)).mp herror with ⟨hmanaged, hleaves, heq⟩
    refine ⟨x, hx, hleaves, ?_, heq⟩
    intro y hy hne hleavesToo
    exact hbefore y hy hne ((isSome_failureAt?_iff hb (hmodels y hy)).mpr ⟨hmanaged, hleavesToo⟩)

end Hop

/-!
# A subsystem with servers

Targets that speak the old version do not know that servers can be encrypted.
-/

namespace MailServers

def mail : Address :=
  [Address.subsystemElement "mail"]

def server (name : String) : Address :=
  mail.child ⟨"server", name⟩

/-- The rules about the subsystem: the port of a server is rejected, and logs are. -/
def rules : Config.ResourceRules :=
  .node [] [] [] []
    [(⟨⟨"server", "*"⟩, .never, none⟩,
      .node [⟨["port"], none, [], [.defined], [], false, none, none⟩] [] [] [] [] ["tls"]),
      (⟨⟨"log", "*"⟩, .rejectAndWarn, none⟩, .empty)] []

def config : Config :=
  { target? := none
    registrations := []
    subsystems := [
      { name := "mail"
        versions := [{ version := ⟨1, 0, 0⟩, resource := rules }]
        chain? := none }] }

def registry : Registry :=
  match config.registry with
  | .ok r => r
  | .error _ => Registry.empty

/-- The only hop. -/
def hop : Hop :=
  match registry.hopsTo? "mail" ⟨1, 0, 0⟩ with
  | some [only] => only
  | _ => ⟨"", Trie.empty⟩

/-- The context at the beginning, for a core version. -/
def context (coreVersion : ModelVersion) : Context :=
  Context.start ⟨"legacy-host", coreVersion, [("mail", ⟨1, 0, 0⟩)], .host⟩
    (config.model Resource.empty)

/-- A log and two servers that are encrypted; only one of them names its port. -/
def resource : Resource :=
  Resource.ofChildren .emptyObject
    [(⟨"log", "errors"⟩, Resource.ofModel .emptyObject),
      (⟨"server", "backup"⟩, Resource.ofModel (.object [("tls", .boolean true)])),
      (⟨"server", "smtp"⟩, Resource.ofModel (.object [("port", .long 25), ("tls", .boolean true)]))]

theorem registry_config : config.registry = .ok registry := by
  rfl

theorem holds_hop : registry.Holds hop :=
  ⟨"mail", ⟨1, 0, 0⟩, [hop], rfl, List.mem_singleton_self hop⟩

theorem ordered_resource : resource.Ordered := by
  apply Resource.ordered_ofChildren
  intro pair hpair
  simp only [List.mem_cons, List.not_mem_nil, or_false] at hpair
  rcases hpair with rfl | rfl | rfl <;> exact Resource.ordered_ofModel _

theorem isModel_resource : ∀ x ∈ resource.listing mail, x.2.IsModel := by
  have hlisting : (resource.listing mail).map Prod.snd =
      [.emptyObject, .emptyObject, .object [("tls", .boolean true)],
        .object [("port", .long 25), ("tls", .boolean true)]] := by
    rfl
  intro x hx
  have hmodel := List.mem_map_of_mem (f := Prod.snd) hx
  rw [hlisting] at hmodel
  have hports : ["port", "tls"].Nodup := by
    decide
  simp only [List.mem_cons, List.not_mem_nil, or_false] at hmodel
  rcases hmodel with heq | heq | heq | heq <;> rw [heq]
  · exact .object List.Pairwise.nil
  · exact .object List.Pairwise.nil
  · exact .object (List.pairwise_singleton _ "tls")
  · exact .object hports

end MailServers

open MailServers in
/-- Of the two servers, the target is told of the first. -/
theorem Hop.refused_backup :
    mail ≠ [] ∧ resource.Ordered ∧ (∀ x ∈ resource.listing mail, x.2.IsModel) ∧
    (context ⟨1, 4, 0⟩).target.coreVersion.older ⟨1, 4, 0⟩ = false ∧
    (TransformM.run (hop.transformResource mail resource) (context ⟨1, 4, 0⟩)).1 =
      .error (.notUnderstood ["tls"] (server "backup").text "legacy-host" "mail" "1.0.0") ∧
    exists x, x ∈ resource.listing mail ∧ hop.LeavesNew (context ⟨1, 4, 0⟩) x ∧
      x.1.text = (server "backup").text ∧ hop.definedNewAt (context ⟨1, 4, 0⟩) x = ["tls"] ∧
      ∀ y ∈ resource.listing mail, y ≠ x -> hop.LeavesNew (context ⟨1, 4, 0⟩) y ->
        x.1.compare y.1 = .lt := by
  have hfails : (TransformM.run (hop.transformResource mail resource) (context ⟨1, 4, 0⟩)).1 =
      .error (.notUnderstood ["tls"] (server "backup").text "legacy-host" "mail" "1.0.0") := by
    rfl
  rcases Hop.transformResource_error_iff (c := context ⟨1, 4, 0⟩) registry_config holds_hop
    (a := mail) (List.cons_ne_nil _ _) ordered_resource isModel_resource with ⟨hiff, hfirst⟩
  have hmanages := (hiff.mp ⟨_, hfails⟩).1
  rcases hfirst _ hfails with ⟨x, hx, hleaves, hbefore, heq⟩
  injection heq with hdefined htext
  exact ⟨List.cons_ne_nil _ _, ordered_resource, isModel_resource, hmanages, hfails, x, hx, hleaves,
    htext.symm, hdefined.symm, hbefore⟩

end MixedDomain
