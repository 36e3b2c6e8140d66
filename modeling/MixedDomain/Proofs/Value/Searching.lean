import MixedDomain.Proofs.Value.Expressions

/-!
# How expressions are found

## Patterns

A pattern is found in a text when it matches some part of it.  The pattern of an
expression is `$` with an opening brace, any characters, line breaks among them, and a
closing brace.

## Positions

The pattern is found just if `$` and the opening brace stand at two neighbouring
positions, and a closing brace at any position after both.  Other opening braces in
between, and closing braces before, make no difference.
-/

namespace MixedDomain

/-!
# Patterns
-/

/-- What is looked for in a text. -/
inductive Pattern where
  | char (c : Char)
  /-- Any character, but a line break only if the pattern goes across lines. -/
  | any (acrossLines : Bool)
  | next (first second : Pattern)
  | repeated (p : Pattern)

namespace Pattern

/-- Whether a pattern matches a text as a whole. -/
inductive Matches : Pattern -> List Char -> Prop where
  | char {c : Char} : Matches (.char c) [c]
  | any {acrossLines : Bool} {c : Char} (hline : c = '\n' -> acrossLines = true) :
      Matches (.any acrossLines) [c]
  | next {first second : Pattern} {cs others : List Char} (hfirst : Matches first cs)
      (hsecond : Matches second others) : Matches (.next first second) (cs ++ others)
  | none {p : Pattern} : Matches (.repeated p) []
  | more {p : Pattern} {cs others : List Char} (hfirst : Matches p cs)
      (hrest : Matches (.repeated p) others) : Matches (.repeated p) (cs ++ others)

def FoundIn (p : Pattern) (cs : List Char) : Prop :=
  exists before part after, cs = before ++ (part ++ after) ∧ p.Matches part

def ofExpression : Pattern :=
  .next (.char '$')
    (.next (.char openingBrace) (.next (.repeated (.any true)) (.char closingBrace)))

theorem matches_repeated_any (cs : List Char) : Matches (.repeated (.any true)) cs := by
  induction cs with
  | nil => exact .none
  | cons c rest ih => exact .more (.any fun _ => rfl) ih

theorem matches_char_iff {c : Char} {cs : List Char} : Matches (.char c) cs ↔ cs = [c] := by
  constructor
  · intro h
    cases h
    rfl
  · intro h
    rw [h]
    exact .char

theorem matches_next_iff {first second : Pattern} {cs : List Char} :
    Matches (.next first second) cs ↔
      exists front back, cs = front ++ back ∧ Matches first front ∧ Matches second back := by
  constructor
  · intro h
    cases h with
    | next hfirst hsecond => exact ⟨_, _, rfl, hfirst, hsecond⟩
  · intro h
    rcases h with ⟨front, back, rfl, hfirst, hsecond⟩
    exact .next hfirst hsecond

theorem matches_ofExpression_iff {cs : List Char} :
    ofExpression.Matches cs ↔
      exists between, cs = '$' :: openingBrace :: (between ++ [closingBrace]) := by
  simp only [ofExpression, matches_next_iff, matches_char_iff, matches_repeated_any]
  constructor
  · intro h
    rcases h with ⟨_, _, rfl, rfl, _, _, rfl, rfl, between, _, rfl, _, rfl⟩
    exact ⟨between, rfl⟩
  · intro h
    rcases h with ⟨between, rfl⟩
    exact ⟨_, _, rfl, rfl, _, _, rfl, rfl, between, _, rfl, trivial, rfl⟩

theorem foundIn_ofExpression_iff (cs : List Char) :
    ofExpression.FoundIn cs ↔ OpensExpression cs := by
  simp only [FoundIn, matches_ofExpression_iff, OpensExpression]
  constructor
  · intro h
    rcases h with ⟨before, _, after, rfl, between, rfl⟩
    exact ⟨before, between, after, by simp⟩
  · intro h
    rcases h with ⟨before, between, after, rfl⟩
    exact ⟨before, _, after, by simp, between, rfl⟩

end Pattern

/-!
# Positions
-/

/-- Whether `$` stands at one position, with an opening brace after it, and a closing brace at
another position after both. -/
structure ExpressionBetween (cs : List Char) (i j : Nat) : Prop where
  dollar : cs[i]? = some '$'
  opening : cs[i + 1]? = some openingBrace
  closing : cs[j]? = some closingBrace
  apart : i + 2 ≤ j

theorem drop_eq_cons {cs : List Char} {i : Nat} {c : Char} (h : cs[i]? = some c) :
    cs.drop i = c :: cs.drop (i + 1) := by
  rcases List.getElem?_eq_some_iff.mp h with ⟨hi, rfl⟩
  exact List.drop_eq_getElem_cons hi

theorem opensExpression_iff_exists_positions (cs : List Char) :
    OpensExpression cs ↔ exists i j, ExpressionBetween cs i j := by
  constructor
  · intro h
    rcases h with ⟨before, between, after, rfl⟩
    refine ⟨before.length, before.length + (between.length + 2), ?_, ?_, ?_, by omega⟩
    · simp
    · simp
    · simp
  · intro hfound
    rcases hfound with ⟨i, j, h⟩
    have hclosing : closingBrace ∈ cs.drop (i + 2) := by
      apply List.mem_of_getElem? (i := j - (i + 2))
      rw [List.getElem?_drop, Nat.add_sub_cancel' h.apart, h.closing]
    rcases List.append_of_mem hclosing with ⟨between, after, hback⟩
    refine ⟨cs.take i, between, after, ?_⟩
    rw [← hback, ← drop_eq_cons h.opening, ← drop_eq_cons h.dollar, List.take_append_drop]

/-!
# Values
-/

namespace Value

/-- Whether a value is a string, or an EXPRESSION, with a text. -/
def IsLeafWith (text : String) (v : Value) : Prop :=
  v = .string text ∨ v = .expression text

theorem holdsExpressionText_iff (v : Value) :
    v.HoldsExpressionText ↔ exists text, v.IsLeafWith text ∧ OpensExpression text.toList := by
  constructor
  · intro h
    cases v with
    | string s => exact ⟨s, Or.inl rfl, h⟩
    | expression s => exact ⟨s, Or.inr rfl, h⟩
    | _ => exact h.elim
  · intro hfound
    rcases hfound with ⟨text, rfl | rfl, h⟩
    · exact h
    · exact h

/-- A text is searched for the pattern of an expression, and a value holds an expression just if
such positions are in the text of some string or EXPRESSION among its items, the values of its
entries and of its properties, at any depth. -/
theorem hasExpression_iff_exists_positions :
    (forall cs, holdsExpression cs = true ↔ Pattern.ofExpression.FoundIn cs) ∧
      forall v : Value, v.hasExpression = true ↔
        exists (leaf : Value) (text : String), leaf.IsPart v ∧ leaf.IsLeafWith text ∧
          exists i j, ExpressionBetween text.toList i j := by
  constructor
  · intro cs
    rw [holdsExpression_iff, Pattern.foundIn_ofExpression_iff]
  · intro v
    simp only [hasExpression_iff_exists_isPart, holdsExpressionText_iff,
      opensExpression_iff_exists_positions, exists_and_left]

end Value
end MixedDomain
