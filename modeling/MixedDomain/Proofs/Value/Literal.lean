import MixedDomain.Proofs.Value.Encoding

/-!
# How integers are written

## Digits

A run of digits consists of zeros in front and the digits of its number, of which the
last digit is always one.

## Literals

So a literal is known once its number, the zeros in front and the sign of zero are
known.  The text of an integer is the literal without zeros in front and without a sign
of zero.
-/

namespace MixedDomain
namespace Literal

def leadingZeros : List Char -> Nat
  | '0' :: c :: rest => leadingZeros (c :: rest) + 1
  | _ => 0

def hasMinus (cs : List Char) : Bool :=
  cs.head? == some '-'

/-- Whether two literals of a number have as many zeros in front, and the same sign if it is
zero. -/
def WrittenAlike (i : Int) (cs others : List Char) : Prop :=
  leadingZeros (withoutMinus cs) = leadingZeros (withoutMinus others) ∧
    (i = 0 -> hasMinus cs = hasMinus others)

/-!
# Digits
-/

theorem foldl_eq_ofDigitChars (cs : List Char) (n : Nat) :
    cs.foldl (fun n c => n * 10 + Text.digitValue c) n = Nat.ofDigitChars 10 cs n := by
  rw [Nat.ofDigitChars]
  congr 1
  funext n c
  rw [Nat.mul_comm]
  rfl

theorem digitValue_lt_ten {c : Char} (h : Text.isDigit c = true) : Text.digitValue c < 10 := by
  rw [Text.isDigit, Bool.and_eq_true, decide_eq_true_eq, decide_eq_true_eq] at h
  have hhigh : c.toNat ≤ 57 := h.2
  rw [Text.digitValue]
  omega

theorem digitChar_digitValue {c : Char} (h : Text.isDigit c = true) :
    Nat.digitChar (Text.digitValue c) = c := by
  apply Char.toNat_inj.mp
  rw [Nat.toNat_digitChar_of_lt_ten (digitValue_lt_ten h), Text.digitValue]
  rw [Text.isDigit, Bool.and_eq_true, decide_eq_true_eq] at h
  have hlow : 48 ≤ c.toNat := h.1
  omega

theorem toDigits_append {cs : List Char} (h : allDigits cs = true) {n : Nat} (hn : 0 < n) :
    Nat.toDigits 10 n ++ cs = Nat.toDigits 10 (Nat.ofDigitChars 10 cs n) := by
  induction cs generalizing n with
  | nil =>
      rw [List.append_nil, Nat.ofDigitChars_nil]
  | cons c rest ih =>
      simp only [allDigits, List.all_cons, Bool.and_eq_true] at h
      have hdigit := digitValue_lt_ten h.1
      have hstep := Nat.toDigits_append_toDigits (by decide) hn hdigit
      rw [Nat.toDigits_of_lt_base hdigit, digitChar_digitValue h.1] at hstep
      rw [Nat.ofDigitChars_cons, List.append_cons, hstep]
      exact ih h.2 (by omega)

theorem eq_zeros_append_toDigits {cs : List Char} (h : someDigits cs = true) :
    cs = List.replicate (leadingZeros cs) '0' ++ Nat.toDigits 10 (Text.natOfDigits cs) := by
  rw [Text.natOfDigits, foldl_eq_ofDigitChars]
  induction cs with
  | nil =>
      cases h
  | cons c rest ih =>
      simp only [someDigits, allDigits, List.isEmpty_cons, Bool.not_false, List.all_cons,
        Bool.true_and, Bool.and_eq_true] at h
      by_cases hzero : c = '0'
      · subst hzero
        cases rest with
        | nil => rfl
        | cons d others =>
            have hrest : someDigits (d :: others) = true := by
              simpa [someDigits, allDigits] using h.2
            rw [leadingZeros, List.replicate_succ, List.cons_append, Nat.ofDigitChars_cons]
            exact congrArg _ (ih hrest)
      · have hnone : leadingZeros (c :: rest) = 0 := by
          rw [leadingZeros]
          simp [hzero]
        have hdigit := digitValue_lt_ten h.1
        have hpositive : 0 < Text.digitValue c := by
          refine Nat.pos_of_ne_zero fun hvalue => hzero ?_
          rw [← digitChar_digitValue h.1, hvalue]
          rfl
        have hdigits := toDigits_append h.2 hpositive
        rw [Nat.toDigits_of_lt_base hdigit, digitChar_digitValue h.1] at hdigits
        rw [hnone, Nat.ofDigitChars_cons]
        simpa [Text.digitValue] using hdigits

theorem natOfDigits_toDigits (n : Nat) : Text.natOfDigits (Nat.toDigits 10 n) = n := by
  rw [Text.natOfDigits, foldl_eq_ofDigitChars, Nat.ofDigitChars_ten_toDigits]

theorem leadingZeros_toDigits (n : Nat) : leadingZeros (Nat.toDigits 10 n) = 0 := by
  have hdigits := eq_zeros_append_toDigits (Value.someDigits_toDigits n)
  rw [natOfDigits_toDigits] at hdigits
  simpa using congrArg List.length hdigits

/-!
# Literals
-/

theorem minus_cases (cs : List Char) :
    (exists rest, cs = '-' :: rest) ∨ (hasMinus cs = false ∧ withoutMinus cs = cs) := by
  cases cs with
  | nil => exact Or.inr ⟨rfl, rfl⟩
  | cons c rest =>
      by_cases hc : c = '-'
      · exact Or.inl ⟨rest, congrArg (· :: rest) hc⟩
      · refine Or.inr ⟨by simp [hasMinus, hc], ?_⟩
        unfold withoutMinus
        split
        · rename_i hcons
          exact absurd (List.cons.inj hcons).1 hc
        · rfl

theorem readDigits?_of_someDigits {cs : List Char} (h : someDigits cs = true) :
    Text.readDigits? cs = some (Text.natOfDigits cs) :=
  if_pos h

theorem readInt?_of_someDigits {cs : List Char} (h : someDigits cs = true) :
    Text.readInt? cs = some (Text.natOfDigits cs : Int) := by
  unfold Text.readInt?
  split
  · cases h
  · cases h
  · rw [readDigits?_of_someDigits h]
    rfl

theorem readInt?_of_isInteger {cs : List Char} (h : isInteger cs = true) :
    Text.readInt? cs = some (if hasMinus cs then -(Text.natOfDigits (withoutMinus cs) : Int)
      else (Text.natOfDigits (withoutMinus cs) : Int)) := by
  rcases minus_cases cs with ⟨rest, rfl⟩ | ⟨hsign, hcs⟩
  · rw [Text.readInt?, show Text.readDigits? rest = _ from readDigits?_of_someDigits h]
    rfl
  · rw [isInteger, hcs] at h
    rw [hsign, hcs, readInt?_of_someDigits h]
    rfl

theorem eq_of_digits {cs others : List Char} (hcs : isInteger cs = true)
    (hothers : isInteger others = true) (hsign : hasMinus cs = hasMinus others)
    (hzeros : leadingZeros (withoutMinus cs) = leadingZeros (withoutMinus others))
    (hnumber : Text.natOfDigits (withoutMinus cs) = Text.natOfDigits (withoutMinus others)) :
    cs = others := by
  have hdigits : withoutMinus cs = withoutMinus others := by
    rw [eq_zeros_append_toDigits hcs, eq_zeros_append_toDigits hothers, hzeros, hnumber]
  rcases minus_cases cs with ⟨rest, rfl⟩ | ⟨hplus, hsame⟩
  · rcases minus_cases others with ⟨rest', rfl⟩ | ⟨hplus', _⟩
    · exact congrArg _ hdigits
    · rw [hplus'] at hsign
      cases hsign
  · rcases minus_cases others with ⟨rest', rfl⟩ | ⟨_, hsame'⟩
    · rw [hplus] at hsign
      cases hsign
    · rw [← hsame, ← hsame', hdigits]

theorem eq_iff_writtenAlike {cs others : List Char} (hcs : isInteger cs = true)
    (hothers : isInteger others = true) {i j : Int} (hi : Text.readInt? cs = some i)
    (hj : Text.readInt? others = some j) : cs = others ↔ j = i ∧ WrittenAlike i cs others := by
  rw [readInt?_of_isInteger hcs, Option.some.injEq] at hi
  rw [readInt?_of_isInteger hothers, Option.some.injEq] at hj
  constructor
  · intro hsame
    subst hsame
    exact ⟨hj.symm.trans hi, rfl, fun _ => rfl⟩
  · intro h
    rcases h with ⟨rfl, hzeros, hzero⟩
    -- Without zero in between, the sign of a literal is the one of its number.
    have hsign : hasMinus cs = hasMinus others := by
      cases hminus : hasMinus cs <;> cases hminus' : hasMinus others <;>
        simp only [hminus, hminus', if_true, if_false, Bool.false_eq_true] at hi hj hzero ⊢
      all_goals exact hzero (by omega)
    refine eq_of_digits hcs hothers hsign hzeros ?_
    rw [hsign] at hi
    split at hi <;> omega

/-!
# Texts of integers
-/

theorem readInt?_toString (i : Int) : Text.readInt? (toString i).toList = some i := by
  cases i with
  | ofNat n =>
      rw [Value.toList_toString_ofNat, readInt?_of_someDigits (Value.someDigits_toDigits n),
        natOfDigits_toDigits]
      rfl
  | negSucc n =>
      rw [Value.toList_toString_negSucc, Text.readInt?,
        readDigits?_of_someDigits (Value.someDigits_toDigits (n + 1)), natOfDigits_toDigits]
      rfl

/-- The text of an integer has no zeros in front, and zero has no sign in it. -/
theorem writtenAlike_toString_iff (i : Int) (cs : List Char) :
    WrittenAlike i cs (toString i).toList ↔
      leadingZeros (withoutMinus cs) = 0 ∧ (i = 0 -> hasMinus cs = false) := by
  cases i with
  | ofNat n =>
      have hdigits := Value.someDigits_toDigits n
      have hplus : hasMinus (Nat.toDigits 10 0) = false := rfl
      rw [WrittenAlike, Value.toList_toString_ofNat, Value.withoutMinus_of_someDigits hdigits,
        leadingZeros_toDigits]
      refine and_congr_right fun _ => forall_congr' fun hzero => ?_
      rw [Int.ofNat.inj hzero, hplus]
  | negSucc n =>
      rw [WrittenAlike, Value.toList_toString_negSucc, withoutMinus, leadingZeros_toDigits]
      refine and_congr_right fun _ => forall_congr' fun hzero => ?_
      cases hzero

end Literal
end MixedDomain
