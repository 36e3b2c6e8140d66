import Mathlib.Data.List.Perm.Subperm
import MixedDomain.Proofs.Entries.Sorted

/-!
# Equality of values

## Comparable values

Equality is blind to the order of entries, and looks from the first object into the
second one only.  It is a proper equality for values in which no object has a name
twice and no number is NaN, all the way down.

## Normal forms

A value is in normal form when all its entries are in the order of their names and
its zeros are positive.  Comparable values are equal just if their normal forms are
the same, and so the order of entries does not matter at any depth.

## Objects

Together with the histories of entries this makes objects finite maps, of which
equality sees the names and the values.
-/

namespace MixedDomain
namespace Binary64

/-- The number with a positive sign if it is a zero. -/
def unsignedZero (d : Binary64) : Binary64 :=
  if d.isZero then zero false else d

/-- Numbers are equal just if they are the same up to the sign of a zero. -/
theorem eqv_iff_unsignedZero {a b : Binary64} (ha : a.isNaN = false) (hb : b.isNaN = false) :
    a.eqv b = true ↔ a.unsignedZero = b.unsignedZero := by
  have hzero : (zero false).isZero = true := by
    decide
  have hbits : (a.bits == b.bits) = true ↔ a = b := by
    cases a
    cases b
    simp
  rw [eqv, ha, hb, Bool.not_false, Bool.true_and, Bool.true_and, Bool.or_eq_true, hbits,
    Bool.and_eq_true, unsignedZero, unsignedZero]
  by_cases haZero : a.isZero = true
  · by_cases hbZero : b.isZero = true
    · simp [haZero, hbZero]
    · have hne : zero false ≠ b := fun heq => hbZero (heq ▸ hzero)
      have hne' : a ≠ b := fun heq => hbZero (heq ▸ haZero)
      simp [haZero, hbZero, hne, hne']
  · by_cases hbZero : b.isZero = true
    · have hne : a ≠ zero false := fun heq => haZero (heq ▸ hzero)
      have hne' : a ≠ b := fun heq => haZero (heq ▸ hbZero)
      simp [haZero, hbZero, hne, hne']
    · simp [haZero, hbZero]

end Binary64

namespace Value

variable {a b : List (String × Value)}

/-- Whether no object has a name twice and no number is NaN, all the way down. -/
inductive IsComparable : Value -> Prop where
  | undefined : IsComparable .undefined
  | boolean (b : Bool) : IsComparable (.boolean b)
  | int (i : Int32) : IsComparable (.int i)
  | long (i : Int64) : IsComparable (.long i)
  | double {d : Binary64} (hnumber : d.isNaN = false) : IsComparable (.double d)
  | bigInteger (literal : String) : IsComparable (.bigInteger literal)
  | bigDecimal (literal : String) : IsComparable (.bigDecimal literal)
  | string (s : String) : IsComparable (.string s)
  | bytes (octets : List UInt8) : IsComparable (.bytes octets)
  | list {items : List Value} (hitems : ∀ item ∈ items, IsComparable item) :
      IsComparable (.list items)
  | object {entries : List (String × Value)} (hdistinct : Entries.Distinct entries)
      (hentries : ∀ entry ∈ entries, IsComparable entry.2) : IsComparable (.object entries)
  | property (name : String) {value : Value} (hvalue : IsComparable value) :
      IsComparable (.property name value)
  | expression (s : String) : IsComparable (.expression s)
  | type (kind : Kind) : IsComparable (.type kind)

/-!
# Objects
-/

theorem coveredBy_iff :
    coveredBy a b = true ↔
      ∀ entry ∈ a, ∃ y, Entries.get? entry.1 b = some y ∧ eqv entry.2 y = true := by
  induction a with
  | nil => simp [coveredBy]
  | cons entry rest ih =>
      rcases entry with ⟨key, x⟩
      rw [coveredBy, Bool.and_eq_true, ih, List.forall_mem_cons]
      refine and_congr_left fun _ => ?_
      cases Entries.get? key b <;> simp

/-- Objects with distinct names are equal just if they have the same names with equal values. -/
theorem eqv_object_iff (ha : Entries.Distinct a) (hb : Entries.Distinct b) :
    eqv (.object a) (.object b) = true ↔
      forall key,
        Option.Rel (fun x y => eqv x y = true) (Entries.get? key a) (Entries.get? key b) := by
  rw [eqv, Bool.and_eq_true, beq_iff_eq, coveredBy_iff]
  constructor
  · rintro ⟨hlength, hcovered⟩ key
    have hsub : Entries.keys a ⊆ Entries.keys b := by
      intro name hname
      rcases List.mem_map.mp hname with ⟨entry, hentry, rfl⟩
      rcases hcovered entry hentry with ⟨y, hy, _⟩
      exact Entries.isSome_get?_iff.mp (Option.isSome_of_eq_some hy)
    -- As many names as in the second object, all different and all of them in it, are all of them.
    have hperm : (Entries.keys a).Perm (Entries.keys b) := by
      refine (List.subperm_of_subset ha hsub).perm_of_length_le ?_
      simp [Entries.keys, hlength]
    refine Option.rel_of_isSome_iff ?_ ?_
    · rw [Entries.isSome_get?_iff, Entries.isSome_get?_iff, hperm.mem_iff]
    · intro x y hx hy
      rcases hcovered (key, x) (Entries.mem_of_get? hx) with ⟨y', hy', heqv⟩
      rw [hy] at hy'
      cases hy'
      exact heqv
  · intro h
    constructor
    · have hperm : (Entries.keys a).Perm (Entries.keys b) := by
        refine (List.perm_ext_iff_of_nodup ha hb).mpr fun key => ?_
        rw [← Entries.isSome_get?_iff, ← Entries.isSome_get?_iff]
        exact Option.isSome_iff_of_rel (h key)
      simpa [Entries.keys] using hperm.length_eq
    · rintro ⟨key, x⟩ hentry
      have hhere := h key
      rw [Entries.get?_of_mem ha hentry] at hhere
      generalize Entries.get? key b = found at hhere
      cases hhere with
      | some hxy => exact ⟨_, rfl, hxy⟩

/-!
# Normal forms
-/

mutual

/-- The value with all entries in the order of their names, and positive zeros. -/
def normal : Value -> Value
  | .double d => .double d.unsignedZero
  | .list items => .list (normalItems items)
  | .object entries => .object (Entries.sorted (normalEntries entries))
  | .property name value => .property name value.normal
  | v => v

def normalItems : List Value -> List Value
  | [] => []
  | item :: rest => item.normal :: normalItems rest

def normalEntries : List (String × Value) -> List (String × Value)
  | [] => []
  | (key, value) :: rest => (key, value.normal) :: normalEntries rest

end

theorem keys_normalEntries (a : List (String × Value)) :
    Entries.keys (normalEntries a) = Entries.keys a := by
  induction a with
  | nil => rfl
  | cons entry rest ih => exact congrArg (entry.1 :: ·) ih

theorem get?_normalEntries (key : String) (a : List (String × Value)) :
    Entries.get? key (normalEntries a) = (Entries.get? key a).map normal := by
  induction a with
  | nil => rfl
  | cons entry rest ih =>
      simp only [normalEntries, Entries.get?]
      split
      · rfl
      · exact ih

theorem get?_sorted_normalEntries (ha : Entries.Distinct a) (key : String) :
    Entries.get? key (Entries.sorted (normalEntries a)) = (Entries.get? key a).map normal := by
  rw [Entries.get?_sorted, get?_normalEntries]
  rw [Entries.Distinct, keys_normalEntries]
  exact ha

/-- Objects have the same normal form just if they have the same names with values of the same
normal forms. -/
theorem sorted_normalEntries_eq_iff (ha : Entries.Distinct a) (hb : Entries.Distinct b) :
    Entries.sorted (normalEntries a) = Entries.sorted (normalEntries b) ↔
      forall key, Option.Rel (fun x y => x.normal = y.normal) (Entries.get? key a)
        (Entries.get? key b) := by
  rw [Entries.eq_iff_of_ascending (Entries.ascending_sorted _) (Entries.ascending_sorted _)]
  refine forall_congr' fun key => ?_
  rw [get?_sorted_normalEntries ha, get?_sorted_normalEntries hb]
  cases Entries.get? key a <;> cases Entries.get? key b <;> simp

theorem eqvItems_iff_normalItems {items others : List Value}
    (h : ∀ x ∈ items, ∀ y ∈ others, (eqv x y = true ↔ x.normal = y.normal)) :
    eqvItems items others = true ↔ normalItems items = normalItems others := by
  induction items generalizing others with
  | nil => cases others <;> simp [eqvItems, normalItems]
  | cons x rest ih =>
      cases others with
      | nil => simp [eqvItems, normalItems]
      | cons y others =>
          rw [eqvItems, Bool.and_eq_true, normalItems, normalItems, List.cons.injEq,
            h x List.mem_cons_self y List.mem_cons_self]
          refine and_congr_right fun _ => ih ?_
          intro x' hx' y' hy'
          exact h x' (List.mem_cons_of_mem x hx') y' (List.mem_cons_of_mem y hy')

/-- Comparable values are equal just if they have the same normal form. -/
theorem IsComparable.eqv_iff_normal {v w : Value} (hv : v.IsComparable) (hw : w.IsComparable) :
    eqv v w = true ↔ v.normal = w.normal := by
  induction hv generalizing w with
  | undefined => cases hw <;> simp [eqv, normal]
  | boolean _ => cases hw <;> simp [eqv, normal]
  | int _ => cases hw <;> simp [eqv, normal]
  | long _ => cases hw <;> simp [eqv, normal]
  | double hnumber =>
      cases hw with
      | double hnumber' =>
          simpa [eqv, normal] using Binary64.eqv_iff_unsignedZero hnumber hnumber'
      | _ => simp [eqv, normal]
  | bigInteger _ => cases hw <;> simp [eqv, normal]
  | bigDecimal _ => cases hw <;> simp [eqv, normal]
  | string _ => cases hw <;> simp [eqv, normal]
  | bytes _ => cases hw <;> simp [eqv, normal]
  | list _ ih =>
      cases hw with
      | list hitems =>
          have hall := eqvItems_iff_normalItems fun x hx y hy => ih x hx (hitems y hy)
          simpa [eqv, normal] using hall
      | _ => simp [eqv, normal]
  | object hdistinct _ ih =>
      cases hw with
      | object hdistinct' hentries' =>
          rw [eqv_object_iff hdistinct hdistinct', normal, normal, object.injEq,
            sorted_normalEntries_eq_iff hdistinct hdistinct']
          refine forall_congr' fun key => Option.rel_congr fun x y hx hy => ?_
          exact ih (key, x) (Entries.mem_of_get? hx) (hentries' (key, y) (Entries.mem_of_get? hy))
      | _ => simp [eqv, normal]
  | property name _ ih =>
      cases hw with
      | property name' hvalue => simp [eqv, normal, ih hvalue]
      | _ => simp [eqv, normal]
  | expression _ => cases hw <;> simp [eqv, normal]
  | type _ => cases hw <;> simp [eqv, normal]

theorem equivalence_eqv :
    Equivalence fun v w : {v : Value // v.IsComparable} => (v.1 == w.1) = true := by
  have hiff : forall v w : {v : Value // v.IsComparable},
      (v.1 == w.1) = true ↔ v.1.normal = w.1.normal :=
    fun v w => v.2.eqv_iff_normal w.2
  refine ⟨?_, ?_, ?_⟩
  · exact fun v => (hiff v v).mpr rfl
  · exact fun h => (hiff _ _).mpr ((hiff _ _).mp h).symm
  · exact fun h h' => (hiff _ _).mpr (((hiff _ _).mp h).trans ((hiff _ _).mp h'))

theorem IsComparable.distinct (h : (Value.object a).IsComparable) : Entries.Distinct a := by
  cases h
  assumption

/-!
# Finite maps
-/

/-- Entries that are built from pairs and then edited in any way have distinct names, the answers
are those of the table, and so are the names and things in the end.  Equality of comparable values
is an equivalence.  It holds between two objects just if they have the same names with equal values,
and between any two values just if they are the same once all entries are in the order of their
names. -/
theorem objects_finiteMaps :
    (forall (pairs : List (String × Value)) (edits : List (Entries.Edit Value)),
      let result := Entries.replay (fun entries edit => edit.on entries) edits (Entries.ofList pairs)
      Entries.Distinct result.2 ∧
        Entries.replay (fun t edit => edit.onTable t) edits (Entries.Table.ofList pairs) =
          (result.1, Entries.table result.2)) ∧
      (Equivalence fun v w : {v : Value // v.IsComparable} => (v.1 == w.1) = true) ∧
      (forall a b, (object a).IsComparable -> (object b).IsComparable ->
        ((object a == object b) = true ↔
          forall key, Option.Rel (fun v w => (v == w) = true) (Entries.get? key a)
            (Entries.get? key b))) ∧
      forall v w : Value, v.IsComparable -> w.IsComparable ->
        ((v == w) = true ↔ v.normal = w.normal) := by
  refine ⟨?_, equivalence_eqv, ?_, ?_⟩
  · intro pairs edits
    rw [← Entries.table_ofList]
    exact Entries.replay_table edits (Entries.distinct_ofList pairs)
  · exact fun a b ha hb => eqv_object_iff ha.distinct hb.distinct
  · exact fun v w hv hw => hv.eqv_iff_normal hw

def twoDeep (first second : String × Value) : List (String × Value) :=
  [("list", .list [.object [first, second]]), ("text", .string "b")]

theorem isComparable_twoDeep {first second : String × Value} (hne : first.1 ≠ second.1)
    (hfirst : first.2.IsComparable) (hsecond : second.2.IsComparable) :
    (object (twoDeep first second)).IsComparable := by
  refine .object (by simp [Entries.Distinct, Entries.keys, twoDeep]) ?_
  simp only [twoDeep, List.forall_mem_cons, List.not_mem_nil, false_implies, implies_true, and_true]
  refine ⟨.list ?_, .string "b"⟩
  simp only [List.forall_mem_cons, List.not_mem_nil, false_implies, implies_true, and_true]
  refine .object ?_ ?_
  · simpa [Entries.Distinct, Entries.keys] using hne
  · simp only [List.forall_mem_cons, List.not_mem_nil, false_implies, implies_true, and_true]
    exact ⟨hfirst, hsecond⟩

/-- The two entries below may change places, also with zeros of different signs. -/
theorem objects_finiteMaps_of_twoDeep :
    (object (twoDeep ("one", .int 1) ("zero", .double (Binary64.zero false))) ==
        object (twoDeep ("zero", .double (Binary64.zero true)) ("one", .int 1))) = true := by
  refine (objects_finiteMaps.2.2.2 _ _ ?_ ?_).mpr rfl
  · exact isComparable_twoDeep (by decide) (.int 1) (.double (by decide))
  · exact isComparable_twoDeep (by decide) (.double (by decide)) (.int 1)

end Value
end MixedDomain
