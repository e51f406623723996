import Mathlib.FieldTheory.Finite.Basic
import Mathlib.Data.Nat.ChineseRemainder
import Mathlib.Data.Int.GCD
import Mathlib.Data.Int.ModEq

/-!
# RSA and blinding

Raising to a public and a private exponent gives every residue back, also one
that is not a unit, and a factor raised to the public exponent before the
private one cancels afterwards.
-/

namespace Arithmetic

/-- Exponents that undo each other modulo `p * q`. -/
structure RsaExponents (p q e d : Nat) : Prop where
  primeP : p.Prime
  primeQ : q.Prime
  distinct : p ≠ q
  inverse : e * d ≡ 1 [MOD Nat.lcm (p - 1) (q - 1)]

theorem pow_modEq_prime {p k : Nat} (prime : p.Prime) (positive : 0 < k)
    (exponent : k ≡ 1 [MOD p - 1]) (m : Nat) : m ^ k ≡ m [MOD p] := by
  have fact : Fact p.Prime := ⟨prime⟩
  rw [← ZMod.natCast_eq_natCast_iff]
  push_cast
  by_cases zero : (m : ZMod p) = 0
  · rw [zero, zero_pow positive.ne']
  · obtain ⟨turns, split⟩ := (Nat.modEq_iff_dvd' positive).mp exponent.symm
    have whole : k = (p - 1) * turns + 1 := by omega
    rw [whole, pow_add, pow_mul, ZMod.pow_card_sub_one_eq_one zero, one_pow,
      one_mul, pow_one]

namespace RsaExponents

variable {p q e d : Nat} (rsa : RsaExponents p q e d)

include rsa

theorem modulus_ge : 6 ≤ p * q := by
  have twoP := rsa.primeP.two_le
  have twoQ := rsa.primeQ.two_le
  rcases Nat.lt_or_gt_of_ne rsa.distinct with less | greater
  · calc 6 = 2 * 3 := rfl
      _ ≤ p * q := Nat.mul_le_mul twoP (by omega)
  · calc 6 = 3 * 2 := rfl
      _ ≤ p * q := Nat.mul_le_mul (by omega) twoQ

private theorem product_pos : 0 < e * d := by
  rcases Nat.eq_zero_or_pos (e * d) with zero | positive
  · have inverse := rsa.inverse
    rw [zero] at inverse
    have divides : Nat.lcm (p - 1) (q - 1) ∣ 1 :=
      (Nat.modEq_iff_dvd' (Nat.zero_le 1)).mp inverse
    have eqP := Nat.dvd_one.mp ((Nat.dvd_lcm_left _ _).trans divides)
    have eqQ := Nat.dvd_one.mp ((Nat.dvd_lcm_right _ _).trans divides)
    have twoP := rsa.primeP.two_le
    have twoQ := rsa.primeQ.two_le
    exact absurd (by omega) rsa.distinct
  · exact positive

/-- The exponents undo each other on every residue. -/
theorem pow_pow_modEq (m : Nat) : (m ^ d) ^ e ≡ m [MOD p * q] := by
  have coprime : Nat.Coprime p q :=
    (Nat.coprime_primes rsa.primeP rsa.primeQ).mpr rsa.distinct
  rw [← pow_mul, Nat.mul_comm d e,
    ← Nat.modEq_and_modEq_iff_modEq_mul coprime]
  constructor
  · exact pow_modEq_prime rsa.primeP rsa.product_pos
      (rsa.inverse.of_dvd (Nat.dvd_lcm_left _ _)) m
  · exact pow_modEq_prime rsa.primeQ rsa.product_pos
      (rsa.inverse.of_dvd (Nat.dvd_lcm_right _ _)) m

end RsaExponents

/-- The inverse of a unit, as a residue. -/
def inverse (r : Int) (n : Nat) : Nat := (Int.gcdA r n % n).toNat

theorem mul_inverse {r : Int} {n : Nat} (positive : 0 < n)
    (unit : Int.gcd r n = 1) : r * inverse r n ≡ 1 [ZMOD n] := by
  have nonnegative : 0 ≤ Int.gcdA r n % n := Int.emod_nonneg _ (by omega)
  unfold inverse
  rw [Int.toNat_of_nonneg nonnegative]
  have bezout := Int.gcd_eq_gcd_ab r n
  rw [unit, Nat.cast_one] at bezout
  calc r * (Int.gcdA r n % n) ≡ r * Int.gcdA r n [ZMOD n] :=
        (Int.mod_modEq _ _).mul_left r
    _ ≡ r * Int.gcdA r n + n * Int.gcdB r n [ZMOD n] := by
        rw [Int.modEq_iff_dvd]
        exact ⟨Int.gcdB r n, by ring⟩
    _ ≡ 1 [ZMOD n] := by rw [← bezout]

/-- A signature on a blinded message, unblinded, is valid for the message
exactly when the message was blinded with the factor. -/
theorem unblinded_iff {r : Int} {n e : Nat} (positive : 0 < n)
    (unit : Int.gcd r n = 1) (signed message : Int) :
    (signed * inverse r n) ^ e ≡ message [ZMOD n] ↔
      signed ^ e ≡ message * r ^ e [ZMOD n] := by
  have cancels : (r * inverse r n) ^ e ≡ 1 [ZMOD n] := by
    simpa using (mul_inverse positive unit).pow e
  constructor
  · intro valid
    calc signed ^ e ≡ signed ^ e * (r * inverse r n) ^ e [ZMOD n] := by
          simpa using (cancels.mul_left (signed ^ e)).symm
      _ = (signed * inverse r n) ^ e * r ^ e := by ring
      _ ≡ message * r ^ e [ZMOD n] := valid.mul_right _
  · intro blinded
    calc (signed * inverse r n) ^ e
        = signed ^ e * (inverse r n : Int) ^ e := by ring
      _ ≡ message * r ^ e * (inverse r n : Int) ^ e [ZMOD n] :=
          blinded.mul_right _
      _ = message * (r * inverse r n) ^ e := by ring
      _ ≡ message [ZMOD n] := by
          simpa using cancels.mul_left message

end Arithmetic
