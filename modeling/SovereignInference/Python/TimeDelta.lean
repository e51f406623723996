import SovereignInference.Python.DateTime
import Mathlib.Algebra.Order.Ring.Int
import Mathlib.Tactic.Linarith
import Mathlib.Tactic.Ring

/-!
# Spans of time in seconds

`timedelta.total_seconds()` rounds to a double, so a span a few microseconds
longer than a whole number of seconds can have that number as its seconds.
For numbers below 2^34 there is no such span.
-/

namespace Python

/-- `timedelta.total_seconds()`: the significand of the nearest double and the
number of its binary places. -/
def totalSeconds (micros : Int) : Int × Nat :=
  -- a microsecond is at least 2^-20 seconds, so this is the leading bit
  let leading := Nat.log2 (micros.natAbs * 2 ^ 20 / 10 ^ 6)
  let places := 72 - leading
  (micros.sign * roundHalfEven (micros.natAbs * 2 ^ places) (10 ^ 6), places)

/-- `span.total_seconds() <= limit`. -/
def secondsLe (micros limit : Int) : Bool :=
  let (significand, places) := totalSeconds micros
  decide (significand ≤ limit * 2 ^ places)

/-- The microseconds more than whole seconds that rounding hides. -/
def secondsSlack (limit : Nat) : Nat :=
  10 ^ 6 * 2 ^ Nat.log2 limit / 2 ^ 53

theorem roundHalfEven_le_iff {numerator denominator bound : Nat}
    (positive : 0 < denominator) (even : bound % 2 = 0) :
    roundHalfEven numerator denominator ≤ bound ↔
      2 * numerator ≤ denominator * (2 * bound + 1) := by
  have parts := Nat.div_add_mod numerator denominator
  have small := Nat.mod_lt numerator positive
  unfold roundHalfEven
  generalize numerator / denominator = floor at parts ⊢
  generalize numerator % denominator = rest at parts small ⊢
  have split : denominator * (2 * bound + 1) =
      2 * (denominator * bound) + denominator := by ring
  rw [← parts, split]
  rcases Nat.lt_trichotomy floor bound with less | same | more
  · have product : denominator * (floor + 1) ≤ denominator * bound :=
      Nat.mul_le_mul_left _ less
    rw [Nat.mul_add, Nat.mul_one] at product
    refine iff_of_true ?_ (by omega)
    dsimp only
    split_ifs <;> omega
  · subst same
    dsimp only
    split_ifs <;> omega
  · have product : denominator * (bound + 1) ≤ denominator * floor :=
      Nat.mul_le_mul_left _ more
    rw [Nat.mul_add, Nat.mul_one] at product
    refine iff_of_false ?_ (by omega)
    dsimp only
    split_ifs <;> omega

/-- No positive number of seconds rounds to a number below zero. -/
theorem neg_of_secondsLe {micros limit : Int} (negative : limit < 0)
    (within : secondsLe micros limit = true) : micros < 0 := by
  by_contra notNegative
  have sign : 0 ≤ micros.sign := Int.sign_nonneg_iff.mpr (not_lt.mp notNegative)
  unfold secondsLe totalSeconds at within
  simp only [decide_eq_true_eq] at within
  have below : limit * 2 ^ (72 - Nat.log2
      (micros.natAbs * 2 ^ 20 / 10 ^ 6)) < 0 :=
    Int.mul_neg_of_neg_of_pos negative (by positivity)
  have above := Int.mul_nonneg sign (Int.natCast_nonneg (roundHalfEven
    (micros.natAbs * 2 ^ (72 - Nat.log2 (micros.natAbs * 2 ^ 20 / 10 ^ 6)))
    (10 ^ 6)))
  omega

/-- What the leading bit says about the seconds. -/
theorem leading_bounds {micros : Nat} (positive : 0 < micros) :
    2 ^ Nat.log2 (micros * 2 ^ 20 / 10 ^ 6) * 10 ^ 6 ≤ micros * 2 ^ 20 ∧
      micros * 2 ^ 20 <
        2 ^ (Nat.log2 (micros * 2 ^ 20 / 10 ^ 6) + 1) * 10 ^ 6 := by
  have nonzero : micros * 2 ^ 20 / 10 ^ 6 ≠ 0 := by omega
  have least := Nat.log2_self_le nonzero
  have most := Nat.lt_log2_self (n := micros * 2 ^ 20 / 10 ^ 6)
  exact ⟨(Nat.le_div_iff_mul_le (by decide)).mp least,
    (Nat.div_lt_iff_lt_mul (by decide)).mp most⟩

private theorem le_secondsSlack_iff {excess limit : Nat} :
    excess ≤ secondsSlack limit ↔
      excess * 2 ^ 53 ≤ 10 ^ 6 * 2 ^ Nat.log2 limit :=
  Nat.le_div_iff_mul_le (by decide)

/-- An excess that rounding may hide does not change the leading bit. -/
theorem excess_le_iff {excess limit places leading : Nat}
    (whole : 2 ^ 73 = 2 ^ (places + 1) * 2 ^ leading) (some : 13 ≤ places)
    (positive : 0 < excess)
    (least : 2 ^ leading * 10 ^ 6 ≤ (limit * 10 ^ 6 + excess) * 2 ^ 20)
    (most : (limit * 10 ^ 6 + excess) * 2 ^ 20 < 2 ^ (leading + 1) * 10 ^ 6) :
    excess * 2 ^ (places + 1) ≤ 10 ^ 6 ↔ excess ≤ secondsSlack limit := by
  rw [le_secondsSlack_iff]
  have scaled : excess * 2 ^ 53 * 2 ^ 20 =
      excess * 2 ^ (places + 1) * 2 ^ leading := by
    rw [Nat.mul_assoc, Nat.mul_assoc, ← whole, ← Nat.pow_add]
  constructor
  · intro hidden
    have few : excess < 10 ^ 6 := by
      have power : 2 ^ 1 ≤ 2 ^ (places + 1) :=
        Nat.pow_le_pow_right (by decide) (by omega)
      have doubled := Nat.mul_le_mul_left excess power
      omega
    have below : limit < 2 ^ (Nat.log2 limit + 1) := Nat.lt_log2_self
    have sameBit : 2 ^ leading ≤ 2 ^ Nat.log2 limit * 2 ^ 20 := by
      rw [← Nat.pow_add]
      apply Nat.pow_le_pow_right (by decide)
      by_contra higher
      have power : 2 ^ (Nat.log2 limit + 1 + 20) ≤ 2 ^ leading :=
        Nat.pow_le_pow_right (by decide) (by omega)
      rw [Nat.pow_add] at power
      omega
    have product : excess * 2 ^ 53 * 2 ^ 20 ≤
        10 ^ 6 * 2 ^ Nat.log2 limit * 2 ^ 20 := by
      calc excess * 2 ^ 53 * 2 ^ 20
          = excess * 2 ^ (places + 1) * 2 ^ leading := scaled
        _ ≤ 10 ^ 6 * (2 ^ Nat.log2 limit * 2 ^ 20) :=
            Nat.mul_le_mul hidden sameBit
        _ = 10 ^ 6 * 2 ^ Nat.log2 limit * 2 ^ 20 :=
            (Nat.mul_assoc _ _ _).symm
    exact Nat.le_of_mul_le_mul_right product (Nat.two_pow_pos 20)
  · intro hidden
    have nonzero : limit ≠ 0 := by
      rintro rfl
      have noBit : Nat.log2 0 = 0 := rfl
      rw [noBit] at hidden
      omega
    have below := Nat.log2_self_le nonzero
    have sameBit : 2 ^ Nat.log2 limit * 2 ^ 20 ≤ 2 ^ leading := by
      rw [← Nat.pow_add]
      apply Nat.pow_le_pow_right (by decide)
      by_contra lower
      have power : 2 ^ (leading + 1) ≤ 2 ^ (Nat.log2 limit + 20) :=
        Nat.pow_le_pow_right (by decide) (by omega)
      rw [Nat.pow_add _ _ 20] at power
      omega
    have product : excess * 2 ^ (places + 1) * 2 ^ leading ≤
        10 ^ 6 * 2 ^ leading := by
      calc excess * 2 ^ (places + 1) * 2 ^ leading
          = excess * 2 ^ 53 * 2 ^ 20 := scaled.symm
        _ ≤ 10 ^ 6 * 2 ^ Nat.log2 limit * 2 ^ 20 :=
            Nat.mul_le_mul_right _ hidden
        _ = 10 ^ 6 * (2 ^ Nat.log2 limit * 2 ^ 20) := Nat.mul_assoc _ _ _
        _ ≤ 10 ^ 6 * 2 ^ leading := Nat.mul_le_mul_left _ sameBit
    exact Nat.le_of_mul_le_mul_right product (Nat.two_pow_pos leading)

/-- Rounding hides no more than the slack. -/
theorem round_le_iff {micros limit places : Nat} (positive : 0 < micros)
    (small : micros < 2 ^ 59)
    (isPlaces : places = 72 - Nat.log2 (micros * 2 ^ 20 / 10 ^ 6)) :
    roundHalfEven (micros * 2 ^ places) (10 ^ 6) ≤ limit * 2 ^ places ↔
      micros ≤ limit * 10 ^ 6 + secondsSlack limit := by
  obtain ⟨least, most⟩ := leading_bounds positive
  generalize Nat.log2 (micros * 2 ^ 20 / 10 ^ 6) = leading
    at least most isPlaces
  have leadingSmall : leading < 60 := by
    by_contra large
    have power : 2 ^ 60 ≤ 2 ^ leading :=
      Nat.pow_le_pow_right (by decide) (not_lt.mp large)
    omega
  have whole : 2 ^ 73 = 2 ^ (places + 1) * 2 ^ leading := by
    rw [← Nat.pow_add]
    congr 1
    omega
  have some : 13 ≤ places := by omega
  have even : limit * 2 ^ places % 2 = 0 := by
    obtain ⟨fewer, rfl⟩ : ∃ fewer, places = fewer + 1 :=
      ⟨places - 1, by omega⟩
    rw [Nat.pow_succ, ← Nat.mul_assoc]
    exact Nat.mul_mod_left _ 2
  rw [roundHalfEven_le_iff (by decide) even]
  rcases Nat.lt_or_ge (limit * 10 ^ 6) micros with more | within
  · obtain ⟨excess, rfl⟩ := Nat.exists_eq_add_of_lt more
    rw [Nat.add_assoc] at least most ⊢
    have bounded : (excess + 1) * 2 ^ (places + 1) ≤ 10 ^ 6 ↔
        excess + 1 ≤ secondsSlack limit :=
      excess_le_iff whole some (Nat.succ_pos _) least most
    rw [Nat.add_le_add_iff_left, ← bounded]
    have parts : 2 * ((limit * 10 ^ 6 + (excess + 1)) * 2 ^ places) =
        10 ^ 6 * (2 * (limit * 2 ^ places)) +
          (excess + 1) * 2 ^ (places + 1) := by ring
    rw [parts]
    omega
  · have product := Nat.mul_le_mul_right (2 ^ places) within
    have parts : limit * 10 ^ 6 * 2 ^ places =
        10 ^ 6 * (limit * 2 ^ places) := by ring
    rw [parts] at product
    refine iff_of_true ?_ (Nat.le_add_right_of_le within)
    omega

theorem secondsLe_iff {micros : Int} {limit : Nat} (small : micros < 2 ^ 59) :
    secondsLe micros limit = true ↔
      micros ≤ limit * 10 ^ 6 + secondsSlack limit := by
  unfold secondsLe totalSeconds
  rw [decide_eq_true_iff]
  rcases lt_or_ge 0 micros with positive | notPositive
  · obtain ⟨count, rfl⟩ := Int.eq_ofNat_of_zero_le positive.le
    rw [Int.sign_eq_one_of_pos positive, Int.one_mul, Int.natAbs_natCast]
    have rounded := @round_le_iff count limit _ (by omega) (by omega) rfl
    exact_mod_cast rounded
  · have sign : micros.sign ≤ 0 := Int.sign_nonpos_iff.mpr notPositive
    refine iff_of_true ?_ (by omega)
    exact (Int.mul_nonpos_of_nonpos_of_nonneg sign
      (Int.natCast_nonneg _)).trans (by positivity)

end Python
