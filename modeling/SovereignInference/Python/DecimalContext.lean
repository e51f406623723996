import SovereignInference.Python.DecimalValue
import Mathlib.Tactic.Linarith

/-!
# Sums in the context

A finite result is rounded to the digits and exponents of the context.  It
keeps its value exactly if some number of the context has this value.
-/

namespace Python.Decimal

private theorem le_length_natDigits (fuel value : Nat) (later : Text) :
    later.length ≤ (natDigits fuel value later).length := by
  induction fuel generalizing value later with
  | zero => rfl
  | succ fuel induction =>
      simp only [natDigits]
      split_ifs with short
      · simp
      · have step := induction (value / 10) (digitText (value % 10) :: later)
        rw [List.length_cons] at step
        omega

theorem lt_length_natDigits {fuel : Nat} (fueled : 0 < fuel) (value : Nat)
    (later : Text) :
    later.length < (natDigits fuel value later).length := by
  obtain ⟨fuel, rfl⟩ := Nat.exists_eq_succ_of_ne_zero fueled.ne'
  simp only [natDigits]
  split_ifs with short
  · simp
  · have step := le_length_natDigits fuel (value / 10)
      (digitText (value % 10) :: later)
    rw [List.length_cons] at step
    omega

private theorem length_natDigits_le_iff {fuel value : Nat}
    (enough : value < 10 ^ fuel) (later : Text) (bound : Nat) :
    (natDigits fuel value later).length ≤ bound + 1 + later.length ↔
      value < 10 ^ (bound + 1) := by
  induction fuel generalizing value later bound with
  | zero =>
      have small : value < 10 ^ (bound + 1) :=
        enough.trans_le (Nat.one_le_pow _ _ (by decide))
      simp only [natDigits, Nat.le_add_left, small]
  | succ fuel induction =>
      rw [pow_succ] at enough
      simp only [natDigits]
      split_ifs with short
      · refine iff_of_true ?_ ?_
        · rw [List.length_cons]
          omega
        · rw [pow_succ]
          have := Nat.one_le_pow bound 10 (by decide)
          omega
      · have shorter : value / 10 < 10 ^ fuel := by omega
        cases bound with
        | zero =>
            have fueled : 0 < fuel := by
              rcases Nat.eq_zero_or_pos fuel with rfl | fueled
              · omega
              · exact fueled
            have longer := lt_length_natDigits fueled (value / 10)
              (digitText (value % 10) :: later)
            rw [List.length_cons] at longer
            refine iff_of_false ?_ ?_
            · omega
            · omega
        | succ bound =>
            have step := induction shorter (digitText (value % 10) :: later)
              bound
            have shift : bound + 1 + 1 + later.length =
                bound + 1 + (digitText (value % 10) :: later).length := by
              rw [List.length_cons]
              omega
            rw [shift, step, Nat.div_lt_iff_lt_mul (by decide)]
            rw [pow_succ 10 (bound + 1)]

theorem length_natText_le_iff {value bound : Nat} (positive : 0 < bound) :
    (natText value).length ≤ bound ↔ value < 10 ^ bound := by
  obtain ⟨bound, rfl⟩ := Nat.exists_eq_succ_of_ne_zero positive.ne'
  have enough : value < 10 ^ (Nat.log2 value + 1) :=
    Nat.lt_log2_self.trans_le (Nat.pow_le_pow_left (by decide) _)
  exact length_natDigits_le_iff enough [] bound

theorem length_natText_pos (value : Nat) : 0 < (natText value).length :=
  lt_length_natDigits (Nat.succ_pos _) value []

theorem lt_pow_length_natText (value : Nat) :
    value < 10 ^ (natText value).length :=
  (length_natText_le_iff (length_natText_pos value)).mp le_rfl

theorem pow_length_natText_le {value : Nat} (nonzero : value ≠ 0) :
    10 ^ ((natText value).length - 1) ≤ value := by
  by_contra less
  have few : value < 10 ^ ((natText value).length - 1) := Nat.not_le.mp less
  rcases Nat.eq_zero_or_pos ((natText value).length - 1) with none | some
  · rw [none] at few
    omega
  · have := (length_natText_le_iff some).mpr few
    omega

/-- Zeros at the end are digits. -/
theorem length_natText_mul_pow {value : Nat} (nonzero : value ≠ 0)
    (zeros : Nat) :
    (natText (value * 10 ^ zeros)).length = (natText value).length + zeros := by
  have positive := length_natText_pos value
  apply le_antisymm
  · rw [length_natText_le_iff (by omega), pow_add]
    exact Nat.mul_lt_mul_of_pos_right (lt_pow_length_natText value)
      (by positivity)
  · by_contra shorter
    have bound := lt_pow_length_natText (value * 10 ^ zeros)
    have few : value < 10 ^ ((natText value).length - 1) := by
      apply Nat.lt_of_mul_lt_mul_right (a := 10 ^ zeros)
      rw [← pow_add]
      exact bound.trans_le (Nat.pow_le_pow_right (by decide) (by omega))
    exact absurd (pow_length_natText_le nonzero) (Nat.not_le.mpr few)

/-- A number with at most so many digits, in the range of exponents. -/
def Fits (digits : Nat) (q : ℚ) : Prop :=
  ∃ negative coefficient exponent, q = value negative coefficient exponent ∧
    (natText coefficient).length ≤ digits ∧
    emin - (digits - 1) ≤ exponent ∧
    exponent + (natText coefficient).length - 1 ≤ emax

theorem abs_value (negative : Bool) (coefficient : Nat) (exponent : Int) :
    |value negative coefficient exponent| =
      coefficient * (10 : ℚ) ^ exponent := by
  have power : (0 : ℚ) ≤ 10 ^ exponent := by positivity
  unfold value
  rw [scaled_eq, abs_mul, abs_of_nonneg power]
  cases negative <;> simp

/-- The same value with a greater exponent has fewer zeros. -/
theorem coefficient_eq {c d : Nat} {e f : Int}
    (same : c * (10 : ℚ) ^ e = d * 10 ^ f) (order : e ≤ f) :
    c = d * 10 ^ (f - e).toNat := by
  have base : (10 : ℚ) ≠ 0 := by norm_num
  have power : (10 : ℚ) ^ e ≠ 0 := zpow_ne_zero _ base
  have split : (10 : ℚ) ^ f = 10 ^ (f - e).toNat * 10 ^ e := by
    rw [← zpow_natCast, ← zpow_add₀ base]
    congr 1
    omega
  rw [split, ← mul_assoc] at same
  exact_mod_cast mul_right_cancel₀ power same

/-- The exponent of the leading digit is that of the value. -/
theorem leading_eq {c d : Nat} {e f : Int} (nonzero : c ≠ 0)
    (same : c * (10 : ℚ) ^ e = d * 10 ^ f) :
    e + (natText c).length = f + (natText d).length := by
  rcases le_total e f with order | order
  · have equal := coefficient_eq same order
    have nonzero' : d ≠ 0 := by
      rintro rfl
      exact nonzero (by simpa using equal)
    rw [equal, length_natText_mul_pow nonzero']
    omega
  · rw [coefficient_eq same.symm order, length_natText_mul_pow nonzero]
    omega

theorem value_mul_pow (negative : Bool) (coefficient zeros : Nat)
    (exponent : Int) :
    value negative (coefficient * 10 ^ zeros) exponent =
      value negative coefficient (exponent + zeros) := by
  have base : (10 : ℚ) ≠ 0 := by norm_num
  unfold value
  rw [scaled_eq, scaled_eq, zpow_add₀ base, zpow_natCast]
  cases negative with
  | true =>
      simp only [if_true]
      push_cast
      ring
  | false =>
      simp only [Bool.false_eq_true, if_false]
      push_cast
      ring

/-- Nothing is rounded where there is nothing to drop. -/
theorem shiftRight_mul_pow (coefficient zeros : Nat) :
    shiftRight (coefficient * 10 ^ zeros) zeros = coefficient := by
  have positive : 0 < 10 ^ zeros := by positivity
  unfold shiftRight roundHalfEven
  simp [Nat.mul_div_cancel _ positive, positive]

private theorem shiftRight_le (coefficient count : Nat) :
    shiftRight coefficient count ≤ coefficient / 10 ^ count + 1 := by
  unfold shiftRight roundHalfEven
  dsimp only
  split_ifs <;> omega

section

variable {digits : Nat} {negative : Bool} {coefficient : Nat} {exponent : Int}

/-- Dropping the excess digits leaves at most a carry. -/
theorem shiftRight_bound {excess : Nat}
    (enough : (natText coefficient).length ≤ digits + excess) :
    shiftRight coefficient excess ≤ 10 ^ digits := by
  have below : coefficient / 10 ^ excess < 10 ^ digits := by
    rw [Nat.div_lt_iff_lt_mul (by positivity), ← pow_add]
    exact (lt_pow_length_natText coefficient).trans_le
      (Nat.pow_le_pow_right (by decide) enough)
  have step := shiftRight_le coefficient excess
  omega

/-- A rounded result is a number of the context. -/
theorem finish_fits (positive : 0 < digits) {x : Decimal}
    (finished : finish (.digits digits) negative coefficient exponent =
      .ok x) : Fits digits x.toRat := by
  unfold finish at finished
  dsimp only at finished
  split_ifs at finished with zero carried tooLarge tooLarge
  · cases finished
    refine ⟨_, _, _, rfl, ?_, ?_, ?_⟩
    · rw [length_natText_le_iff positive]
      positivity
    · exact le_max_left _ _
    · have short : (natText 0).length = 1 := rfl
      rw [short]
      simp only [emin, emax]
      omega
  · cases finished
    generalize excessEq : (max (((natText coefficient).length : Int) - digits)
      (emin - (digits - 1) - exponent)).toNat = excess at *
    have enough : (natText coefficient).length ≤ digits + excess := by omega
    have bound := shiftRight_bound enough
    refine ⟨_, _, _, rfl, ?_, ?_, ?_⟩
    · rw [length_natText_le_iff positive]
      have power : 0 < 10 ^ digits := by positivity
      omega
    · omega
    · omega
  · cases finished
    generalize excessEq : (max (((natText coefficient).length : Int) - digits)
      (emin - (digits - 1) - exponent)).toNat = excess at *
    refine ⟨_, _, _, rfl, ?_, ?_, ?_⟩
    · omega
    · omega
    · omega

/-- A number of the context is not rounded. -/
theorem finish_of_fits
    (fits : Fits digits (value negative coefficient exponent)) :
    ∃ x, finish (.digits digits) negative coefficient exponent = .ok x ∧
      x.toRat = value negative coefficient exponent := by
  obtain ⟨negative', d, f, same, few, above, below⟩ := fits
  by_cases zero : coefficient = 0
  · subst zero
    refine ⟨.finite negative 0
      (max (emin - (digits - 1)) (min exponent emax)), ?_, ?_⟩
    · unfold finish
      exact if_pos rfl
    · simp [toRat, value, scaled_eq]
  have magnitudes : coefficient * (10 : ℚ) ^ exponent = d * 10 ^ f := by
    rw [← abs_value negative, same, abs_value]
  have leading := leading_eq zero magnitudes
  generalize excessEq : (max (((natText coefficient).length : Int) - digits)
    (emin - (digits - 1) - exponent)).toNat = excess
  obtain ⟨kept, split⟩ : ∃ kept, coefficient = kept * 10 ^ excess := by
    rcases Nat.eq_zero_or_pos excess with none | some
    · exact ⟨coefficient, by rw [none, pow_zero, Nat.mul_one]⟩
    · have room : exponent + excess ≤ f := by omega
      refine ⟨d * 10 ^ (f - (exponent + excess)).toNat, ?_⟩
      rw [coefficient_eq magnitudes (by omega), Nat.mul_assoc, ← pow_add]
      congr 2
      omega
  have nonzero : kept ≠ 0 := by
    rintro rfl
    exact zero (by rw [split, Nat.zero_mul])
  have lengths := length_natText_mul_pow nonzero excess
  rw [← split] at lengths
  have uncarried : ¬ (natText kept).length > digits := by omega
  have inRange : ¬ exponent + excess + (natText kept).length - 1 > emax := by
    omega
  refine ⟨.finite negative kept (exponent + excess), ?_, ?_⟩
  · unfold finish
    dsimp only
    rw [if_neg zero, excessEq, split, shiftRight_mul_pow, if_neg uncarried,
      if_neg uncarried, if_neg inRange]
  · rw [toRat, split, value_mul_pow]

end

/-- A sum is the rounded exact sum. -/
theorem add_eq_finish {x y : Decimal} (left : x.IsFinite)
    (right : y.IsFinite) :
    ∃ negative coefficient exponent,
      (∀ precision, x.add precision y =
        finish precision negative coefficient exponent) ∧
      value negative coefficient exponent = x.toRat + y.toRat := by
  obtain ⟨a, c, e, rfl⟩ := left
  obtain ⟨b, d, f, rfl⟩ := right
  have base : (10 : ℚ) ≠ 0 := by norm_num
  have shift : ∀ g : Int, min e f ≤ g →
      (10 : ℚ) ^ g = 10 ^ (g - min e f).toNat * 10 ^ min e f := by
    intro g above
    rw [← zpow_natCast, ← zpow_add₀ base]
    congr 1
    omega
  refine ⟨_, _, _, fun _ => rfl, ?_⟩
  generalize sumEq : (if a then -(c * 10 ^ (e - min e f).toNat : Int)
      else c * 10 ^ (e - min e f).toNat) +
    (if b then -(d * 10 ^ (f - min e f).toNat : Int)
      else d * 10 ^ (f - min e f).toNat) = sum
  have signed : (if (if sum = 0 then a && b else decide (sum < 0)) then
      -(sum.natAbs : Int) else sum.natAbs) = sum := by
    by_cases zero : sum = 0
    · simp [zero]
    · by_cases negative : sum < 0
      · rw [if_neg zero, decide_eq_true negative, if_pos rfl]
        omega
      · rw [if_neg zero, decide_eq_false negative,
          if_neg Bool.false_ne_true]
        omega
  simp only [toRat, value, signed, scaled_eq]
  rw [← sumEq, shift e (min_le_left _ _), shift f (min_le_right _ _)]
  cases a <;> cases b <;> (simp; ring)

/-- A sum is exact if and only if it is a number of the context. -/
theorem add_exact_iff {digits : Nat} (positive : 0 < digits) {x y : Decimal}
    (left : x.IsFinite) (right : y.IsFinite) :
    (∃ sum, x.add (.digits digits) y = .ok sum ∧
      sum.toRat = x.toRat + y.toRat) ↔ Fits digits (x.toRat + y.toRat) := by
  obtain ⟨negative, coefficient, exponent, added, exact⟩ :=
    add_eq_finish left right
  rw [added, ← exact]
  constructor
  · rintro ⟨sum, finished, same⟩
    rw [← same]
    exact finish_fits positive finished
  · exact finish_of_fits

end Python.Decimal
