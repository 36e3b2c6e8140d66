import MixedDomain.Attribute.Expression

/-!
# Where expressions stand

## In texts

A text is cut where an expression begins and where it ends: into `$` with an opening
brace, a closing brace, and whatever stands before, between and after them.

## In values

The parts of a value are the value itself and the parts of the items, entries and the
property that it holds.  Names are no parts.
-/

namespace MixedDomain

/-- Whether `$` with an opening brace stands somewhere in a text, and a closing brace later. -/
def OpensExpression (cs : List Char) : Prop :=
  exists before between after,
    cs = before ++ '$' :: openingBrace :: (between ++ closingBrace :: after)

theorem opensExpression_cons (c : Char) (rest : List Char) :
    OpensExpression (c :: rest) ↔
      (c = '$' ∧ exists between after, rest = openingBrace :: (between ++ closingBrace :: after)) ∨
        OpensExpression rest := by
  constructor
  · intro h
    rcases h with ⟨before, between, after, hcut⟩
    cases before with
    | nil =>
        cases hcut
        exact Or.inl ⟨rfl, between, after, rfl⟩
    | cons d before =>
        cases hcut
        exact Or.inr ⟨before, between, after, rfl⟩
  · intro h
    rcases h with ⟨rfl, between, after, rfl⟩ | ⟨before, between, after, rfl⟩
    · exact ⟨[], between, after, rfl⟩
    · exact ⟨c :: before, between, after, rfl⟩

theorem holdsExpression_iff (cs : List Char) :
    holdsExpression cs = true ↔ OpensExpression cs := by
  induction cs with
  | nil =>
      simp [holdsExpression, OpensExpression]
  | cons c rest ih =>
      rw [holdsExpression, Bool.or_eq_true, ih, opensExpression_cons]
      refine or_congr_left ?_
      cases rest with
      | nil => simp
      | cons d others => simp [List.mem_iff_append, and_assoc]

namespace Value

/-- Whether a value is a part of another one, at any depth. -/
inductive IsPart (part : Value) : Value -> Prop where
  | whole : IsPart part part
  | item {items : List Value} {item : Value} (hmem : item ∈ items) (hpart : IsPart part item) :
      IsPart part (.list items)
  | entry {entries : List (String × Value)} {entry : String × Value} (hmem : entry ∈ entries)
      (hpart : IsPart part entry.2) : IsPart part (.object entries)
  | property {name : String} {value : Value} (hpart : IsPart part value) :
      IsPart part (.property name value)

def HoldsExpressionText : Value -> Prop
  | .string s => OpensExpression s.toList
  | .expression s => OpensExpression s.toList
  | _ => False

theorem itemHasExpression_eq_any (items : List Value) :
    itemHasExpression items = items.any hasExpression := by
  induction items with
  | nil =>
      rfl
  | cons item rest ih =>
      rw [itemHasExpression, ih, List.any_cons]

theorem entryHasExpression_eq_any (entries : List (String × Value)) :
    entryHasExpression entries = entries.any fun entry => hasExpression entry.2 := by
  induction entries with
  | nil =>
      rfl
  | cons entry rest ih =>
      rw [entryHasExpression, ih, List.any_cons]

theorem hasExpression_of_isPart {part v : Value} (hpart : part.IsPart v)
    (htext : part.HoldsExpressionText) : v.hasExpression = true := by
  induction hpart with
  | whole =>
      cases part with
      | string s => exact (holdsExpression_iff s.toList).mpr htext
      | expression s => exact (holdsExpression_iff s.toList).mpr htext
      | _ => exact htext.elim
  | item hmem _ ih =>
      rw [hasExpression, itemHasExpression_eq_any]
      exact List.any_eq_true.mpr ⟨_, hmem, ih⟩
  | entry hmem _ ih =>
      rw [hasExpression, entryHasExpression_eq_any]
      exact List.any_eq_true.mpr ⟨_, hmem, ih⟩
  | property _ ih =>
      exact ih

theorem exists_isPart_of_hasExpression (v : Value) (h : v.hasExpression = true) :
    exists part : Value, part.IsPart v ∧ part.HoldsExpressionText := by
  match v, h with
  | .string s, h => exact ⟨.string s, .whole, (holdsExpression_iff s.toList).mp h⟩
  | .expression s, h => exact ⟨.expression s, .whole, (holdsExpression_iff s.toList).mp h⟩
  | .list items, h =>
      rw [hasExpression, itemHasExpression_eq_any] at h
      rcases List.any_eq_true.mp h with ⟨item, hmem, hitem⟩
      have hsmaller : sizeOf item < sizeOf items := List.sizeOf_lt_of_mem hmem
      rcases exists_isPart_of_hasExpression item hitem with ⟨part, hpart, htext⟩
      exact ⟨part, .item hmem hpart, htext⟩
  | .object entries, h =>
      rw [hasExpression, entryHasExpression_eq_any] at h
      rcases List.any_eq_true.mp h with ⟨⟨key, value⟩, hmem, hvalue⟩
      have hsmaller : sizeOf (key, value) < sizeOf entries := List.sizeOf_lt_of_mem hmem
      rcases exists_isPart_of_hasExpression value hvalue with ⟨part, hpart, htext⟩
      exact ⟨part, .entry hmem hpart, htext⟩
  | .property _ value, h =>
      rcases exists_isPart_of_hasExpression value h with ⟨part, hpart, htext⟩
      exact ⟨part, .property hpart, htext⟩
termination_by sizeOf v
decreasing_by
  · rw [list.sizeOf_spec]
    omega
  · rw [Prod.mk.sizeOf_spec] at hsmaller
    rw [object.sizeOf_spec]
    omega
  · rw [property.sizeOf_spec]
    omega

theorem hasExpression_iff_exists_isPart (v : Value) :
    v.hasExpression = true ↔ exists part : Value, part.IsPart v ∧ part.HoldsExpressionText :=
  ⟨exists_isPart_of_hasExpression v, fun ⟨_, hpart, htext⟩ => hasExpression_of_isPart hpart htext⟩

end Value
end MixedDomain
