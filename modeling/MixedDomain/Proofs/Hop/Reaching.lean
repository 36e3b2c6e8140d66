import Mathlib.Data.List.Infix
import MixedDomain.Proofs.Description.Ending
import MixedDomain.Proofs.Hop.Address

/-!
# What a transformation reaches

## The way to a resource

A hop reaches an address when the resources at all its beginnings are described and
sent.  Nothing is reached below an address that is not.

## What is met on the way

The rules of a resource are applied only if it is reached, and a resource that is
withheld is noticed only if its parent is reached.  So nothing is met in a listing
below an address that is not reached.
-/

namespace MixedDomain
namespace Hop

variable {h : Hop} {a : Address} {c : Context} {e : PathElement}

def sends (h : Hop) (c : Context) (a : Address) : Bool :=
  match h.description? a with
  | some d => d.withholding.decide a c == .never
  | none => false

/-- Whether the resource at an address and all above it, the root apart, are described and sent. -/
def reaches (h : Hop) (c : Context) (a : Address) : Bool :=
  a.inits.all fun b => b.isEmpty || h.sends c b

theorem reaches_nil (h : Hop) (c : Context) : h.reaches c [] = true := by
  rfl

theorem reaches_child (h : Hop) (c : Context) (a : Address) (e : PathElement) :
    h.reaches c (a.child e) = (h.reaches c a && h.sends c (a.child e)) := by
  have hlast : (a ++ [e]).isEmpty = false := by
    simp
  simp [reaches, Address.child, List.inits_append, hlast]

theorem reaches_append_of_not (hno : h.reaches c a = false) (b : Address) :
    h.reaches c (a ++ b) = false := by
  induction b generalizing a with
  | nil =>
      rw [List.append_nil]
      exact hno
  | cons e rest ih =>
      rw [Address.append_cons_eq_child]
      apply ih
      rw [reaches_child, hno]
      rfl

theorem withholding_root (hb : h.IsBuiltIn) (c : Context) : h.withholding [] c = .never := by
  have hroot := hb.root
  simp [withholding, Trie.along, Trie.alongFrom, hroot, withheldAlong]

theorem withholding_child_eq_never (hb : h.IsBuiltIn) :
    h.withholding (a.child e) c = .never ↔ h.withholding a c = .never ∧
      ((h.description? (a.child e)).map fun d => d.withholding.decide (a.child e) c).getD .never =
        .never := by
  rw [withholding_child hb]
  cases h.withholding a c <;> simp

theorem exists_description?_of_sends (hsends : h.sends c a = true) :
    exists d, h.description? a = some d ∧ d.withholding.decide a c = .never := by
  unfold sends at hsends
  cases hd : h.description? a with
  | none =>
      rw [hd] at hsends
      cases hsends
  | some d =>
      rw [hd] at hsends
      exact ⟨d, rfl, eq_of_beq hsends⟩

theorem withholding_of_reaches (hb : h.IsBuiltIn) (hreached : h.reaches c a = true) :
    h.withholding a c = .never := by
  induction a using List.reverseRecOn with
  | nil => exact withholding_root hb c
  | append_singleton parent e ih =>
      have hboth : h.reaches c (Address.child parent e) = true := hreached
      rw [reaches_child, Bool.and_eq_true] at hboth
      rcases exists_description?_of_sends hboth.2 with ⟨d, hd, hw⟩
      apply (withholding_child_eq_never hb).mpr
      refine ⟨ih hboth.1, ?_⟩
      rw [hd]
      exact hw

/-- Where nothing is withheld, only what has no description is not reached. -/
theorem description?_of_not_reaches (hb : h.IsBuiltIn) (hnever : h.withholding a c = .never)
    (hno : h.reaches c a = false) : h.description? a = none := by
  induction a using List.reverseRecOn with
  | nil =>
      rw [reaches_nil] at hno
      cases hno
  | append_singleton parent e ih =>
      have hsome : h.reaches c (Address.child parent e) = false := hno
      have hchild : h.withholding (Address.child parent e) c = .never := hnever
      show h.description? (Address.child parent e) = none
      rcases (withholding_child_eq_never hb).mp hchild with ⟨habove, hpolicy⟩
      rw [reaches_child, Bool.and_eq_false_iff] at hsome
      rcases hsome with hparent | hown
      · have hne : parent ≠ [] := by
          rintro rfl
          cases hparent
        exact description?_append_eq_none hb hne (ih habove hparent) [e]
      · rw [sends] at hown
        cases hd : h.description? (Address.child parent e) with
        | none => rfl
        | some d =>
            simp only [hd, beq_eq_false_iff_ne] at hown
            simp only [hd, Option.map_some, Option.getD_some] at hpolicy
            exact absurd hpolicy hown

/-!
# What is met on the way
-/

/-- Why the resource at an address cannot be sent, if its rules are applied. -/
def failureAt? (h : Hop) (c : Context) (x : Address × Value) : Option TransformError :=
  if h.reaches c x.1 then (h.description? x.1).bind fun d => d.failure? x.1 x.2 c else none

def ownWarnings (d : ResourceDescription) (c : Context) (x : Address × Value) : List String :=
  match d.withholding.decide x.1 c with
  | .never => d.warnings x.1 x.2 c
  | .silent => []
  | .rejectAndWarn => [notSentMessage c.target x.1]

/-- What is said of the resource at an address, if all above it is sent. -/
def warningsAt (h : Hop) (c : Context) (x : Address × Value) : List String :=
  if h.reaches c x.1.parent then ((h.description? x.1).map fun d => ownWarnings d c x).getD []
  else []

variable {d : ResourceDescription} {model : Value} {x : Address × Value}

theorem sends_of_description? (hd : h.description? a = some d) :
    h.sends c a = (d.withholding.decide a c == .never) := by
  rw [sends, hd]

theorem failureAt?_child_of_sent (hreached : h.reaches c a = true)
    (hd : h.description? (a.child e) = some d) (hw : d.withholding.decide (a.child e) c = .never) :
    h.failureAt? c (a.child e, model) = d.failure? (a.child e) model c := by
  have hchild : h.reaches c (a.child e) = true := by
    rw [reaches_child, hreached, sends_of_description? hd, hw]
    rfl
  simp [failureAt?, hchild, hd]

theorem failureAt?_of_not_reaches (hno : h.reaches c x.1 = false) : h.failureAt? c x = none := by
  simp [failureAt?, hno]

theorem warningsAt_child (hreached : h.reaches c a = true) :
    h.warningsAt c (a.child e, model) =
      ((h.description? (a.child e)).map fun d => ownWarnings d c (a.child e, model)).getD [] := by
  simp [warningsAt, Address.parent_child, hreached]

theorem failureAt?_below (hno : h.reaches c a = false) {b : Address} (hx : x.1 = a ++ e :: b) :
    h.failureAt? c x = none := by
  apply failureAt?_of_not_reaches
  rw [hx]
  exact reaches_append_of_not hno (e :: b)

theorem warningsAt_below (hno : h.reaches c a = false) {b : Address} (hx : x.1 = a ++ e :: b) :
    h.warningsAt c x = [] := by
  have hparent : Address.parent x.1 = a ++ (e :: b).dropLast := by
    rw [hx, Address.parent, List.dropLast_append_cons]
  simp [warningsAt, hparent, reaches_append_of_not hno]

/-!
# Listings below what is not reached
-/

theorem findSome?_below (hno : h.reaches c a = false) {listing : List (Address × Value)}
    (hbelow : ∀ x ∈ listing, exists e b, x.1 = a ++ e :: b) :
    listing.findSome? (h.failureAt? c) = none := by
  apply List.findSome?_eq_none_iff.mpr
  intro x hx
  rcases hbelow x hx with ⟨e, b, hb⟩
  exact failureAt?_below hno hb

theorem flatMap_below (hno : h.reaches c a = false) {listing : List (Address × Value)}
    (hbelow : ∀ x ∈ listing, exists e b, x.1 = a ++ e :: b) :
    listing.flatMap (h.warningsAt c) = [] := by
  apply List.flatMap_eq_nil_iff.mpr
  intro x hx
  rcases hbelow x hx with ⟨e, b, hb⟩
  exact warningsAt_below hno hb

theorem below_of_mem_listing {r : Resource} (hx : x ∈ r.listing (a.child e)) :
    exists e b, x.1 = a ++ e :: b := by
  rcases Resource.exists_append_of_mem_listing r hx with ⟨b, hb⟩
  rw [← Address.append_cons_eq_child] at hb
  exact ⟨e, b, hb⟩

theorem below_of_mem_listingOfChildren {children : List (PathElement × Resource)}
    (hx : x ∈ Resource.listingOfChildren a children) : exists e b, x.1 = a ++ e :: b := by
  rcases Resource.exists_cons_of_mem_listingOfChildren hx with ⟨e, _, b, _, hb⟩
  exact ⟨e, b, hb⟩

/-- A resource that is not sent fails not, and only its own description speaks of it. -/
theorem listing_of_not_sent (hreached : h.reaches c a = true) (hno : h.sends c (a.child e) = false)
    (model : Value) (children : List (PathElement × Resource)) :
    (Resource.listing (a.child e) (.node model children)).findSome? (h.failureAt? c) = none ∧
      (Resource.listing (a.child e) (.node model children)).flatMap (h.warningsAt c) =
        ((h.description? (a.child e)).map fun d => ownWarnings d c (a.child e, model)).getD [] := by
  have hchild : h.reaches c (a.child e) = false := by
    rw [reaches_child, hno, Bool.and_false]
  have hbelow : ∀ x ∈ Resource.listingOfChildren (a.child e) children,
      exists d b, x.1 = a.child e ++ d :: b :=
    fun x hx => below_of_mem_listingOfChildren hx
  rw [Resource.listing]
  constructor
  · rw [List.findSome?_cons, failureAt?_of_not_reaches hchild]
    exact findSome?_below hchild hbelow
  · rw [List.flatMap_cons, warningsAt_child hreached, flatMap_below hchild hbelow, List.append_nil]

end Hop
end MixedDomain
