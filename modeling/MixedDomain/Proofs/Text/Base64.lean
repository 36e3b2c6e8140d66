import MixedDomain.Text.Base64

/-!
# Octets that are read back

## Letters

A number below 64 is read back from its letter, and no letter is the padding.

## Groups

The letters of a group hold the bits of its octets, so that decoding a group gives
its octets, and decoding what has been encoded gives all octets.
-/

namespace MixedDomain
namespace Text
namespace Base64

/-!
# Letters
-/

theorem index?_letter : forall n, n < 64 -> index? (letter n) = some n := by
  decide

theorem letter_ne_padding : forall n, n < 64 -> letter n ≠ '=' := by
  decide

/-!
# Groups
-/

theorem decodeLast_letters {i j k l : Nat} (hi : i < 64) (hj : j < 64) (hk : k < 64) (hl : l < 64) :
    decodeLast (letter i) (letter j) (letter k) (letter l) =
      let n := ((i * 64 + j) * 64 + k) * 64 + l
      some [UInt8.ofNat (n / 65536), UInt8.ofNat (n / 256), UInt8.ofNat n] := by
  simp [decodeLast, index?_letter, letter_ne_padding, hi, hj, hk, hl]

theorem decodeLast_padded {i j k : Nat} (hi : i < 64) (hj : j < 64) (hk : k < 64)
    (hunused : ((i * 64 + j) * 64 + k) % 4 = 0) :
    decodeLast (letter i) (letter j) (letter k) '=' =
      let n := (i * 64 + j) * 64 + k
      some [UInt8.ofNat (n / 1024), UInt8.ofNat (n / 4)] := by
  simp [decodeLast, index?_letter, letter_ne_padding, hi, hj, hk, hunused]

theorem decodeLast_paddedTwice {i j : Nat} (hi : i < 64) (hj : j < 64)
    (hunused : (i * 64 + j) % 16 = 0) :
    decodeLast (letter i) (letter j) '=' '=' = some [UInt8.ofNat ((i * 64 + j) / 16)] := by
  simp [decodeLast, index?_letter, hi, hj, hunused]

theorem ofNat_eq_of_mod {n : Nat} (octet : UInt8) (h : n % 256 = octet.toNat) :
    UInt8.ofNat n = octet := by
  apply UInt8.toNat_inj.mp
  rw [UInt8.toNat_ofNat']
  exact h

theorem decodeLast_group (a b c : UInt8) :
    let n := a.toNat * 65536 + b.toNat * 256 + c.toNat
    decodeLast (letter (n / 262144)) (letter (n / 4096 % 64)) (letter (n / 64 % 64))
      (letter (n % 64)) = some [a, b, c] := by
  intro n
  have ha := a.toNat_lt
  have hb := b.toNat_lt
  have hc := c.toNat_lt
  have hbits : ((n / 262144 * 64 + n / 4096 % 64) * 64 + n / 64 % 64) * 64 + n % 64 = n := by
    omega
  rw [decodeLast_letters (by omega) (by omega) (by omega) (by omega)]
  simp only [hbits]
  rw [ofNat_eq_of_mod a (by omega), ofNat_eq_of_mod b (by omega),
    ofNat_eq_of_mod c (by omega)]

theorem decode_cons {a b c d : Char} {rest : List Char} {octets : List UInt8} (hd : d ≠ '=')
    (hgroup : decodeLast a b c d = some octets) :
    decode (a :: b :: c :: d :: rest) = (decode rest).map fun back => octets ++ back := by
  cases rest with
  | nil => simp [decode, hgroup]
  | cons e others =>
      cases hrest : decode (e :: others) <;> simp [decode, decodeGroup, hd, hgroup, hrest]

/-!
# All octets
-/

theorem decode_encode (octets : List UInt8) : decode (encode octets) = some octets := by
  induction octets using encode.induct with
  | case1 => rfl
  | case2 a =>
      have ha := a.toNat_lt
      rw [encode, decode, decodeLast_paddedTwice (by omega) (by omega) (by omega),
        ofNat_eq_of_mod a (by omega)]
  | case3 a b =>
      have ha := a.toNat_lt
      have hb := b.toNat_lt
      rw [encode, decode, decodeLast_padded (by omega) (by omega) (by omega) (by omega)]
      simp only
      rw [ofNat_eq_of_mod a (by omega), ofNat_eq_of_mod b (by omega)]
  | case4 a b c rest ih =>
      have hlast := letter_ne_padding _
        (Nat.mod_lt (a.toNat * 65536 + b.toNat * 256 + c.toNat) (by decide : 0 < 64))
      rw [encode, decode_cons hlast (decodeLast_group a b c), ih]
      rfl

end Base64
end Text
end MixedDomain
