import MixedDomain.Attribute.Reject
import MixedDomain.Proofs.Attribute.Discarding
import MixedDomain.Proofs.Value.Literal

/-!
# Comparing integers without bounds

## Equality

A BIG_INTEGER keeps its literal as it is.  So two of them are equal just if they have
the same number and are written alike, and a literal is in canonical form just if it
was given so.

## Decisions

Checks that compare a value with others, or with a default, do not see that literals
written in different ways have the same number.
-/

namespace MixedDomain
namespace Value

open Literal

variable {s t : String} {v w : Value} {i : Int}

theorem beq_bigInteger_iff (w : Value) (s : String) :
    (w == .bigInteger s) = true ↔ w = .bigInteger s := by
  show eqv w (.bigInteger s) = true ↔ _
  cases w <;> simp [eqv]

def ListedAlike (i : Int) (s : String) (listed : List Value) : Prop :=
  exists t w, ofBigInteger t = .ok w ∧ w ∈ listed ∧ Text.readInt? t.toList = some i ∧
    WrittenAlike i s.toList t.toList

theorem isInteger_of_ofBigInteger (h : ofBigInteger s = .ok v) : isInteger s.toList = true := by
  unfold ofBigInteger at h
  split at h
  · assumption
  · cases h

/-- Two BIG_INTEGERs are equal just if they have the same number and are written alike. -/
theorem beq_iff_writtenAlike (hs : ofBigInteger s = .ok v) (ht : ofBigInteger t = .ok w)
    {j : Int} (hi : Text.readInt? s.toList = some i) (hj : Text.readInt? t.toList = some j) :
    (v == w) = true ↔ j = i ∧ WrittenAlike i s.toList t.toList := by
  rw [← eq_iff_writtenAlike (isInteger_of_ofBigInteger hs) (isInteger_of_ofBigInteger ht) hi hj,
    String.toList_inj, ofBigInteger_eq_ok hs, ofBigInteger_eq_ok ht, beq_bigInteger_iff,
    bigInteger.injEq]

theorem isAmong_iff_listedAlike (hs : ofBigInteger s = .ok v)
    (hi : Text.readInt? s.toList = some i) (listed : List Value) :
    v.isAmong listed = true ↔ ListedAlike i s listed := by
  rw [isAmong, List.any_eq_true]
  constructor
  · intro h
    rcases h with ⟨w, hmem, hequal⟩
    have hw : w = v := by
      rw [ofBigInteger_eq_ok hs] at hequal ⊢
      exact (beq_bigInteger_iff w s).mp hequal
    exact ⟨s, v, hs, hw ▸ hmem, hi, rfl, fun _ => rfl⟩
  · intro h
    rcases h with ⟨t, w, ht, hmem, hj, halike⟩
    have halike' : WrittenAlike i t.toList s.toList :=
      ⟨halike.1.symm, fun hzero => (halike.2 hzero).symm⟩
    exact ⟨w, hmem, (beq_iff_writtenAlike ht hs hj hi).mpr ⟨rfl, halike'⟩⟩

theorem eq_bigInteger_toString_iff (hs : ofBigInteger s = .ok v)
    (hi : Text.readInt? s.toList = some i) :
    v = .bigInteger (toString i) ↔
      leadingZeros (withoutMinus s.toList) = 0 ∧ (i = 0 -> hasMinus s.toList = false) := by
  have hiff := eq_iff_writtenAlike (isInteger_of_ofBigInteger hs) (isInteger_toString i) hi
    (readInt?_toString i)
  rw [writtenAlike_toString_iff, String.toList_inj] at hiff
  rw [ofBigInteger_eq_ok hs, bigInteger.injEq, hiff]
  exact and_iff_right rfl

/-- A BIG_INTEGER has the number of its literal.  It is in canonical form just if the literal is.
It is equal to another one just if both have the same number and are written alike, and this is what
the checks for discarding and rejecting decide by. -/
theorem comparisons_of_ofBigInteger (hs : ofBigInteger s = .ok v) :
    exists i, Text.readInt? s.toList = some i ∧
      (v = .bigInteger (toString i) ↔
        leadingZeros (withoutMinus s.toList) = 0 ∧ (i = 0 -> hasMinus s.toList = false)) ∧
      (forall t w, ofBigInteger t = .ok w -> exists j, Text.readInt? t.toList = some j ∧
        ((v == w) = true ↔ j = i ∧ WrittenAlike i s.toList t.toList)) ∧
      (forall check : DiscardCheck, check.IsBuiltIn -> check.discardsExpressions = false ->
        forall a name operation c,
          (check.discardsParameter a name v operation c = true ↔ ListedAlike i s
            (check.comparedWith (DiscardCheck.operationDefault? a name operation c))) ∧
          (check.discardsAttribute a name v c = true ↔ ListedAlike i s
            (check.comparedWith (DiscardCheck.attributeDefault? a name c)))) ∧
      forall listed a name c,
        (RejectCheck.values listed).rejects a name v c = true ↔ ListedAlike i s listed := by
  have hi := readInt?_of_isInteger (isInteger_of_ofBigInteger hs)
  have hv := ofBigInteger_eq_ok hs
  have hdefined : v.isDefined = true := by rw [hv]; rfl
  have hopen : v.hasExpression = false ∧ v.isExpression = false := by rw [hv]; exact ⟨rfl, rfl⟩
  refine ⟨_, hi, eq_bigInteger_toString_iff hs hi, ?_, ?_, ?_⟩
  · intro t w ht
    have hj := readInt?_of_isInteger (isInteger_of_ofBigInteger ht)
    exact ⟨_, hj, beq_iff_writtenAlike hs ht hi hj⟩
  · intro check hb hkeeps a name operation c
    rw [DiscardCheck.discardsParameter_eq hb hkeeps hdefined,
      DiscardCheck.discardsAttribute_eq hb hkeeps hdefined, ← isAmong_iff_listedAlike hs hi,
      ← isAmong_iff_listedAlike hs hi]
    simp [hopen]
  · intro listed a name c
    rw [RejectCheck.rejects, isAmong_iff_listedAlike hs hi]

namespace MailQuota

/-- A quota that is too large for 64 bits, with a zero in front. -/
def quota : String :=
  "018446744073709551616"

/-- The same quota without the zero. -/
def plainQuota : String :=
  "18446744073709551616"

end MailQuota

open MailQuota DiscardCheck.MailDefaults in
/-- The quota with a zero in front is not equal to the plain one, and discarded where it is listed
itself. -/
theorem comparisons_quota :
    ofBigInteger quota = .ok (.bigInteger quota) ∧
      (Value.bigInteger quota == .bigInteger plainQuota) = false ∧
      (DiscardCheck.values [.bigInteger plainQuota, .bigInteger quota] true).discardsAttribute mail
        "quota" (.bigInteger quota) context = true := by
  have hs : ofBigInteger quota = .ok (.bigInteger quota) := rfl
  have ht : ofBigInteger plainQuota = .ok (.bigInteger plainQuota) := rfl
  rcases comparisons_of_ofBigInteger hs with ⟨i, hi, _, hequal, hdiscards, _⟩
  rcases hequal plainQuota _ ht with ⟨j, _, hiff⟩
  refine ⟨hs, ?_, ?_⟩
  · rw [Bool.eq_false_iff]
    intro h
    have hzeros := (hiff.mp h).2.1
    exact absurd hzeros (by decide)
  · have hlisted : ListedAlike i quota [.bigInteger plainQuota, .bigInteger quota] :=
      ⟨quota, _, hs, List.mem_cons_of_mem _ List.mem_cons_self, hi, rfl, fun _ => rfl⟩
    exact (hdiscards (.values _ true) trivial rfl mail "quota" .undefined context).2.mpr hlisted

open MailQuota DiscardCheck.MailDefaults in
/-- Two literals of seven and two of zero are accepted, but the values are not equal.  So seven is
not discarded and not rejected where it is listed with zeros in front. -/
theorem not_beq_of_leadingZeros :
    (ofBigInteger "7" = .ok (.bigInteger "7") ∧ Text.readInt? "7".toList = some 7) ∧
      (ofBigInteger "007" = .ok (.bigInteger "007") ∧ Text.readInt? "007".toList = some 7) ∧
      (ofBigInteger "0" = .ok (.bigInteger "0") ∧ Text.readInt? "0".toList = some 0) ∧
      (ofBigInteger "-0" = .ok (.bigInteger "-0") ∧ Text.readInt? "-0".toList = some 0) ∧
      (Value.bigInteger "007" == .bigInteger "7") = false ∧
      (Value.bigInteger "-0" == .bigInteger "0") = false ∧
      (DiscardCheck.values [.bigInteger "007"] true).discardsAttribute mail "quota"
        (.bigInteger "7") context = false ∧
      (RejectCheck.values [.bigInteger "007"]).rejects mail "quota" (.bigInteger "7") context =
        false :=
  ⟨⟨rfl, rfl⟩, ⟨rfl, rfl⟩, ⟨rfl, rfl⟩, ⟨rfl, rfl⟩, rfl, rfl, rfl, rfl⟩

end Value
end MixedDomain
