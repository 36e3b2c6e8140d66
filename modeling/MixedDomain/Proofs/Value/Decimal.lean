import MixedDomain.Proofs.Value.Literal

/-!
# How decimals are written

## Grammar

A decimal literal is a sign, a mantissa and an exponent, of which the sign and the
exponent may be missing.  The grammar says how each of them is written, and does not
mention where a text is cut.

## Cutting

Neither a digit nor a point is a sign or begins an exponent, so a literal is cut between
its sign, its mantissa and its exponent, and a mantissa at its point.  What the cuts
leave is in the grammar just if the text is.
-/

namespace MixedDomain
namespace Literal

/-!
# Grammar
-/

def asciiDigits : List Char :=
  ['0', '1', '2', '3', '4', '5', '6', '7', '8', '9']

def IsDigits (cs : List Char) : Prop :=
  ∀ c ∈ cs, c ∈ asciiDigits

/-- A sign, which may be missing. -/
inductive IsSign : List Char -> Prop where
  | missing : IsSign []
  | plus : IsSign ['+']
  | minus : IsSign ['-']

/-- Digits with at most one point, and at least one digit. -/
inductive IsMantissaText : List Char -> Prop where
  | digits {whole : List Char} (hwhole : IsDigits whole) (hsome : whole ≠ []) :
      IsMantissaText whole
  | point {whole fraction : List Char} (hwhole : IsDigits whole) (hfraction : IsDigits fraction)
      (hsome : whole ≠ [] ∨ fraction ≠ []) : IsMantissaText (whole ++ '.' :: fraction)

/-- A letter, a sign and at least one digit, or nothing at all. -/
inductive IsExponentText : List Char -> Prop where
  | missing : IsExponentText []
  | marked {mark : Char} {sign digits : List Char} (hmark : mark = 'e' ∨ mark = 'E')
      (hsign : IsSign sign) (hdigits : IsDigits digits) (hsome : digits ≠ []) :
      IsExponentText (mark :: (sign ++ digits))

/-- A sign, a mantissa, an exponent, and nothing else. -/
inductive IsDecimalText : List Char -> Prop where
  | parts {sign mantissa exponent : List Char} (hsign : IsSign sign)
      (hmantissa : IsMantissaText mantissa) (hexponent : IsExponentText exponent) :
      IsDecimalText (sign ++ (mantissa ++ exponent))

/-!
# Digits
-/

theorem isDigit_iff_mem (c : Char) : Text.isDigit c = true ↔ c ∈ asciiDigits := by
  constructor
  · intro h
    have hdigits : ∀ n < 10, Nat.digitChar n ∈ asciiDigits := by decide
    rw [← digitChar_digitValue h]
    exact hdigits _ (digitValue_lt_ten h)
  · have hdigits : asciiDigits.all Text.isDigit = true := by decide
    exact List.all_eq_true.mp hdigits c

theorem allDigits_iff (cs : List Char) : allDigits cs = true ↔ IsDigits cs := by
  simp only [allDigits, List.all_eq_true, isDigit_iff_mem, IsDigits]

theorem someDigits_iff (cs : List Char) : someDigits cs = true ↔ IsDigits cs ∧ cs ≠ [] := by
  rw [someDigits, Bool.and_eq_true, allDigits_iff, Bool.not_eq_true', List.isEmpty_eq_false_iff,
    and_comm]

theorem IsDigits.ne {cs : List Char} (h : IsDigits cs) {c mark : Char} (hc : c ∈ cs)
    (hmark : mark ∉ asciiDigits) : c ≠ mark :=
  ne_of_mem_of_not_mem (h c hc) hmark

/-!
# Signs
-/

/-- A text is a sign, which may be missing, and what is left without it. -/
theorem exists_isSign_append (cs : List Char) :
    exists sign, IsSign sign ∧ sign ++ withoutSign cs = cs := by
  unfold withoutSign
  split
  · exact ⟨['-'], .minus, rfl⟩
  · exact ⟨['+'], .plus, rfl⟩
  · exact ⟨[], .missing, rfl⟩

def IsUnsigned (cs : List Char) : Prop :=
  ∀ c ∈ cs.head?, c ≠ '+' ∧ c ≠ '-'

theorem withoutSign_append {sign rest : List Char} (hsign : IsSign sign) (hrest : IsUnsigned rest) :
    withoutSign (sign ++ rest) = rest := by
  cases hsign with
  | plus => rfl
  | minus => rfl
  | missing =>
      rw [List.nil_append]
      unfold withoutSign
      split
      · exact absurd rfl (hrest '-' rfl).2
      · exact absurd rfl (hrest '+' rfl).1
      · rfl

theorem IsDigits.isUnsigned {cs : List Char} (h : IsDigits cs) : IsUnsigned cs := by
  intro c hc
  have hmem := List.mem_of_mem_head? hc
  exact ⟨h.ne hmem (by decide), h.ne hmem (by decide)⟩

theorem someDigits_withoutSign_iff (cs : List Char) :
    someDigits (withoutSign cs) = true ↔
      exists sign digits, IsSign sign ∧ IsDigits digits ∧ digits ≠ [] ∧ sign ++ digits = cs := by
  constructor
  · intro h
    rcases exists_isSign_append cs with ⟨sign, hsign, hcs⟩
    rcases (someDigits_iff _).mp h with ⟨hdigits, hsome⟩
    exact ⟨sign, withoutSign cs, hsign, hdigits, hsome, hcs⟩
  · intro h
    rcases h with ⟨sign, digits, hsign, hdigits, hsome, rfl⟩
    rw [withoutSign_append hsign hdigits.isUnsigned]
    exact (someDigits_iff digits).mpr ⟨hdigits, hsome⟩

/-!
# Exponents
-/

theorem isExponentMark_iff (c : Char) : isExponentMark c = true ↔ c = 'e' ∨ c = 'E' := by
  simp [isExponentMark]

theorem isExponent_iff {cs : List Char} (hmark : ∀ c ∈ cs.head?, isExponentMark c = true) :
    isExponent cs = true ↔ IsExponentText cs := by
  cases cs with
  | nil => exact iff_of_true rfl .missing
  | cons mark rest =>
      rw [isExponent, someDigits_withoutSign_iff]
      constructor
      · intro h
        rcases h with ⟨sign, digits, hsign, hdigits, hsome, rfl⟩
        exact .marked ((isExponentMark_iff mark).mp (hmark mark rfl)) hsign hdigits hsome
      · intro h
        cases h with
        | marked _ hsign hdigits hsome => exact ⟨_, _, hsign, hdigits, hsome, rfl⟩

theorem IsExponentText.isExponentMark_head {cs : List Char} (h : IsExponentText cs) :
    ∀ c ∈ cs.head?, isExponentMark c = true := by
  cases h with
  | missing => exact nofun
  | marked hmark =>
      intro c hc
      cases hc
      exact (isExponentMark_iff _).mpr hmark

/-!
# Cuts
-/

theorem exists_cut (p : Char -> Bool) (cs : List Char) :
    exists front back, front ++ back = cs ∧ (∀ c ∈ front, p c = true) ∧
      ∀ c ∈ back.head?, p c = false := by
  refine ⟨cs.takeWhile p, cs.dropWhile p, List.takeWhile_append_dropWhile, ?_, ?_⟩
  · exact List.all_eq_true.mp List.all_takeWhile
  · intro c hc
    have hfirst := List.head?_dropWhile_not p cs
    rw [hc] at hfirst
    exact hfirst

theorem takeWhile_dropWhile_append {p : Char -> Bool} {front back : List Char}
    (hfront : ∀ c ∈ front, p c = true) (hback : ∀ c ∈ back.head?, p c = false) :
    (front ++ back).takeWhile p = front ∧ (front ++ back).dropWhile p = back := by
  rw [List.takeWhile_append_of_pos hfront, List.dropWhile_append_of_pos hfront]
  cases back with
  | nil => simp
  | cons c rest => simp [hback c rfl]

/-!
# Mantissas
-/

theorem isMantissa_append_iff {whole back : List Char} (hwhole : ∀ c ∈ whole, (c != '.') = true)
    (hback : ∀ c ∈ back.head?, (c != '.') = false) :
    isMantissa (whole ++ back) = true ↔
      (whole ≠ [] ∨ back.drop 1 ≠ []) ∧ IsDigits whole ∧ IsDigits (back.drop 1) := by
  rcases takeWhile_dropWhile_append hwhole hback with ⟨htake, hdrop⟩
  simp only [isMantissa, htake, hdrop, Bool.and_eq_true, allDigits_iff, Bool.not_eq_true',
    Bool.and_eq_false_iff, List.isEmpty_eq_false_iff, and_assoc]

theorem IsDigits.noPoint {cs : List Char} (h : IsDigits cs) : ∀ c ∈ cs, (c != '.') = true :=
  fun _ hc => bne_iff_ne.mpr (h.ne hc (by decide))

theorem isMantissa_iff (cs : List Char) : isMantissa cs = true ↔ IsMantissaText cs := by
  constructor
  · intro h
    rcases exists_cut (· != '.') cs with ⟨whole, back, rfl, hnoPoint, hpoint⟩
    rcases (isMantissa_append_iff hnoPoint hpoint).mp h with ⟨hsome, hwhole, hfraction⟩
    cases back with
    | nil =>
        rw [List.append_nil]
        exact .digits hwhole (by simpa using hsome)
    | cons c fraction =>
        have hc : c = '.' := by simpa using hpoint c rfl
        subst hc
        exact .point hwhole hfraction hsome
  · intro h
    cases h with
    | digits hwhole hsome =>
        rw [← List.append_nil cs, isMantissa_append_iff hwhole.noPoint (by simp)]
        exact ⟨Or.inl hsome, hwhole, by simp [IsDigits]⟩
    | point hwhole hfraction hsome =>
        rw [isMantissa_append_iff hwhole.noPoint (by simp)]
        exact ⟨hsome, hwhole, hfraction⟩

theorem IsMantissaText.mem {cs : List Char} (h : IsMantissaText cs) :
    ∀ c ∈ cs, c ∈ asciiDigits ∨ c = '.' := by
  intro c hc
  cases h with
  | digits hwhole => exact Or.inl (hwhole c hc)
  | point hwhole hfraction =>
      rcases List.mem_append.mp hc with hmem | hmem
      · exact Or.inl (hwhole c hmem)
      · rcases List.mem_cons.mp hmem with hpoint | hmem
        · exact Or.inr hpoint
        · exact Or.inl (hfraction c hmem)

theorem IsMantissaText.ne {cs : List Char} (h : IsMantissaText cs) {c mark : Char} (hc : c ∈ cs)
    (hmark : mark ∉ asciiDigits ∧ mark ≠ '.') : c ≠ mark := by
  intro hsame
  subst hsame
  rcases h.mem c hc with hdigit | hpoint
  · exact hmark.1 hdigit
  · exact hmark.2 hpoint

theorem IsMantissaText.ne_nil {cs : List Char} (h : IsMantissaText cs) : cs ≠ [] := by
  cases h with
  | digits _ hsome => exact hsome
  | point => simp

theorem IsMantissaText.isUnsigned_append {cs : List Char} (h : IsMantissaText cs)
    (others : List Char) : IsUnsigned (cs ++ others) := by
  cases cs with
  | nil => exact absurd rfl h.ne_nil
  | cons first rest =>
      intro c hc
      cases hc
      exact ⟨h.ne List.mem_cons_self (by decide), h.ne List.mem_cons_self (by decide)⟩

theorem IsMantissaText.noMark {cs : List Char} (h : IsMantissaText cs) :
    ∀ c ∈ cs, (!isExponentMark c) = true := by
  intro c hc
  rw [Bool.not_eq_true', Bool.eq_false_iff, ne_eq, isExponentMark_iff, not_or]
  exact ⟨h.ne hc (by decide), h.ne hc (by decide)⟩

/-!
# Decimals
-/

theorem isDecimal_iff_of_cut {cs mantissa exponent : List Char}
    (hcs : withoutSign cs = mantissa ++ exponent)
    (hnoMark : ∀ c ∈ mantissa, (!isExponentMark c) = true)
    (hmark : ∀ c ∈ exponent.head?, (!isExponentMark c) = false) :
    isDecimal cs = true ↔ IsMantissaText mantissa ∧ IsExponentText exponent := by
  rcases takeWhile_dropWhile_append hnoMark hmark with ⟨htake, hdrop⟩
  have hexponent : ∀ c ∈ exponent.head?, isExponentMark c = true :=
    fun c hc => by simpa using hmark c hc
  simp only [isDecimal, hcs, htake, hdrop, Bool.and_eq_true, isMantissa_iff,
    isExponent_iff hexponent]

theorem isDecimal_iff_isDecimalText (cs : List Char) : isDecimal cs = true ↔ IsDecimalText cs := by
  constructor
  · -- The parts of the text are what is cut off at its sign and at its first letter.
    intro h
    rcases exists_isSign_append cs with ⟨sign, hsign, hcs⟩
    rcases exists_cut (fun c => !isExponentMark c) (withoutSign cs) with
      ⟨mantissa, exponent, hcut, hnoMark, hmark⟩
    rcases (isDecimal_iff_of_cut hcut.symm hnoMark hmark).mp h with ⟨hmantissa, hexponent⟩
    rw [← hcs, ← hcut]
    exact .parts hsign hmantissa hexponent
  · -- No part holds a character at which it could be cut, so the cuts give the parts again.
    intro h
    cases h with
    | @parts sign mantissa exponent hsign hmantissa hexponent =>
        have hcs := withoutSign_append hsign (hmantissa.isUnsigned_append exponent)
        have hmark : ∀ c ∈ exponent.head?, (!isExponentMark c) = false :=
          fun c hc => by simpa using hexponent.isExponentMark_head c hc
        exact (isDecimal_iff_of_cut hcs hmantissa.noMark hmark).mpr ⟨hmantissa, hexponent⟩

end Literal

namespace Value

/-- A text is accepted as a BIG_DECIMAL just if it is in the grammar, and is kept as it is; every
other text is refused by an error that carries it. -/
theorem ofBigDecimal_eq_iff (s : String) :
    (forall v, ofBigDecimal s = .ok v ↔ Literal.IsDecimalText s.toList ∧ v = .bigDecimal s) ∧
      (forall e, ofBigDecimal s = .error e ↔
        ¬ Literal.IsDecimalText s.toList ∧ e = .invalidNumber .bigDecimal s) := by
  rw [← Literal.isDecimal_iff_isDecimalText]
  unfold ofBigDecimal
  split
  case isTrue h => simp [h, eq_comm]
  case isFalse h => simp [h, eq_comm]

end Value
end MixedDomain
