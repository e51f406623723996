import SovereignInference.Arithmetic.FloatBits
import SovereignInference.Arithmetic.HalfEven
import Mathlib

/-!
# Rounding to floats

Multiplying and dividing give the float nearest to the exact result, which is
the same however the operation comes to it.  A number close to a float is
rounded to that float.
-/

namespace Arithmetic

open Float.Model
open Float.Model.UnpackedFloat

/-- What the round bit and the sticky bit say of the part of a number after
its mantissa. -/
inductive Residue : Bool → Bool → ℚ → Prop where
  | zero : Residue false false 0
  | low {part : ℚ} : 0 < part → part < 1 / 2 → Residue false true part
  | half : Residue true false (1 / 2)
  | high {part : ℚ} : 1 / 2 < part → part < 1 → Residue true true part

/-- The mantissa is the number rounded down, and the bits say where the number
is up to the next integer. -/
def Describes (em : ExtendedMantissa) (q : ℚ) : Prop :=
  Residue em.roundBit em.stickyBit (q - em.mantissa)

open ExtendedMantissa in
theorem describes_exact (m : ℕ) :
    Describes (ofMantissaAndAccuracy m .exact) m := by
  change Residue false false ((m : ℚ) - m)
  rw [sub_self]
  exact .zero

open ExtendedMantissa in
theorem describes_fraction (m : ℕ) {num den : ℕ} (proper : num < den) :
    Describes (ofMantissaAndAccuracy m (accuracyOfFraction num den))
      (m + num / den) := by
  have positive : (0 : ℚ) < den := by
    exact_mod_cast (Nat.zero_le num).trans_lt proper
  unfold accuracyOfFraction
  split_ifs with isZero
  · subst isZero
    simpa using describes_exact m
  · have some : (0 : ℚ) < num := by exact_mod_cast Nat.pos_of_ne_zero isZero
    have part : (m : ℚ) + num / den - m = num / den := add_sub_cancel_left _ _
    unfold Describes
    cases compared : compare (2 * num) den with
    | lt =>
        change Residue false true (m + num / den - m : ℚ)
        rw [part]
        have less : ((2 * num : ℕ) : ℚ) < den := by
          exact_mod_cast Nat.compare_eq_lt.mp compared
        push_cast at less
        refine .low (by positivity) ?_
        rw [div_lt_div_iff₀ positive two_pos]
        linarith
    | eq =>
        change Residue true false (m + num / den - m : ℚ)
        have same : ((2 * num : ℕ) : ℚ) = den := by
          exact_mod_cast Nat.compare_eq_eq.mp compared
        push_cast at same
        have isHalf : (num : ℚ) / den = 1 / 2 := by
          rw [div_eq_div_iff positive.ne' two_ne_zero]
          linarith
        rw [part, isHalf]
        exact .half
    | gt =>
        change Residue true true (m + num / den - m : ℚ)
        rw [part]
        have more : (den : ℚ) < (2 * num : ℕ) := by
          exact_mod_cast Nat.compare_eq_gt.mp compared
        push_cast at more
        refine .high ?_ ?_
        · rw [div_lt_div_iff₀ two_pos positive]
          linarith
        · rw [div_lt_one positive]
          exact_mod_cast proper

/-- Shifting by one bit halves the number. -/
theorem Describes.shiftRightOne {em : ExtendedMantissa} {q : ℚ}
    (describes : Describes em q) : Describes em.shiftRightOne (q / 2) := by
  obtain ⟨m, round, sticky⟩ := em
  have split : (m : ℚ) = 2 * (m / 2 : ℕ) + (m % 2 : ℕ) := by
    exact_mod_cast (Nat.div_add_mod m 2).symm
  unfold Describes at describes ⊢
  change Residue (m % 2 != 0) (round || sticky) (q / 2 - (m / 2 : ℕ))
  change Residue round sticky (q - m) at describes
  have halved : q / 2 - (m / 2 : ℕ) = ((q - m) + (m % 2 : ℕ)) / 2 := by
    linarith
  rw [halved]
  generalize q - m = part at describes
  rcases Nat.mod_two_eq_zero_or_one m with even | odd
  · rw [even]
    cases describes with
    | zero => simpa using Residue.zero
    | low above below => exact .low (by simp [above]) (by simp; linarith)
    | half => exact .low (by norm_num) (by norm_num)
    | high above below =>
        exact .low (by simp; linarith) (by simp; linarith)
  · rw [odd]
    cases describes with
    | zero => simpa using Residue.half
    | low above below =>
        exact .high (by simp; linarith) (by simp; linarith)
    | half => exact .high (by norm_num) (by norm_num)
    | high above below =>
        exact .high (by simp; linarith) (by simp; linarith)

theorem Describes.shiftRight {em : ExtendedMantissa} {q : ℚ}
    (describes : Describes em q) (n : ℕ) :
    Describes (em >>> n) (q / 2 ^ n) := by
  induction n with
  | zero =>
      rw [pow_zero, div_one]
      exact describes
  | succ n induction =>
      have halved := induction.shiftRightOne
      rw [div_div, ← pow_succ] at halved
      exact halved

/-- The mantissa is rounded to the nearest integer. -/
theorem Describes.roundedMantissa {em : ExtendedMantissa} {q : ℚ}
    (describes : Describes em q) : (em.roundedMantissa : ℤ) = halfEven q := by
  obtain ⟨m, round, sticky⟩ := em
  change Residue round sticky (q - m) at describes
  obtain ⟨part, split⟩ : ∃ part, q = m + part := ⟨q - m, by ring⟩
  have isPart : q - m = part := by rw [split]; ring
  rw [isPart] at describes
  have floor : 0 ≤ part → part < 1 → ⌊q⌋ = m ∧ Int.fract q = part := by
    intro nonneg small
    have isFloor : ⌊q⌋ = m := by
      rw [Int.floor_eq_iff]
      push_cast
      constructor <;> linarith
    refine ⟨isFloor, ?_⟩
    unfold Int.fract
    rw [isFloor]
    push_cast
    exact isPart
  unfold halfEven
  cases describes with
  | zero =>
      obtain ⟨isFloor, isFract⟩ := floor le_rfl one_pos
      rw [isFloor, isFract, if_pos (by norm_num)]
      rfl
  | low above below =>
      obtain ⟨isFloor, isFract⟩ := floor above.le (by linarith)
      rw [isFloor, isFract, if_pos below]
      rfl
  | half =>
      obtain ⟨isFloor, isFract⟩ := floor (by norm_num) (by norm_num)
      rw [isFloor, isFract, if_neg (lt_irrefl _), if_neg (lt_irrefl _)]
      rfl
  | high above below =>
      obtain ⟨isFloor, isFract⟩ := floor (by linarith) below
      rw [isFloor, isFract, if_neg above.not_gt, if_pos above]
      rfl

theorem le_log {v : ℚ} {k : ℤ} (atLeast : 2 ^ k ≤ v) : k ≤ Int.log 2 v :=
  (Int.zpow_le_iff_le_log Nat.one_lt_two
    ((zpow_pos two_pos k).trans_le atLeast)).mp (by exact_mod_cast atLeast)

theorem log_eq {v : ℚ} {k : ℤ} (atLeast : 2 ^ k ≤ v) (below : v < 2 ^ (k + 1)) :
    Int.log 2 v = k := by
  have positive : 0 < v := (zpow_pos two_pos k).trans_le atLeast
  apply le_antisymm
  · exact Int.lt_add_one_iff.mp
      ((Int.lt_zpow_iff_log_lt Nat.one_lt_two positive).mp
        (by exact_mod_cast below))
  · exact le_log atLeast

theorem zpow_log_le {v : ℚ} (positive : 0 < v) : 2 ^ Int.log 2 v ≤ v := by
  exact_mod_cast Int.zpow_log_le_self Nat.one_lt_two positive

theorem lt_zpow_log (v : ℚ) : v < 2 ^ (Int.log 2 v + 1) := by
  exact_mod_cast Int.lt_zpow_succ_log_self Nat.one_lt_two v

/-- The exponent of the floats around a number. -/
def exponentAt (spec : Format) (v : ℚ) : ℤ :=
  spec.targetExponent (Int.log 2 v + 1)

/-- The float of a mantissa that has at most one digit too many. -/
def settle (spec : Format) (sign : Sign) (mantissa : ℕ) (exponent : ℤ) :
    UnpackedFloat :=
  let settled := shiftToTargetExponent spec mantissa exponent .exact
  if above : settled.1.mantissa = 0 then .zero sign
  else .finite sign settled.1.mantissa settled.2 (Nat.pos_of_ne_zero above)

/-- The float nearest to a number that is not negative. -/
def nearest (spec : Format) (sign : Sign) (v : ℚ) : UnpackedFloat :=
  settle spec sign (halfEven (v / 2 ^ exponentAt spec v)).toNat
    (exponentAt spec v)

theorem Describes.bounds {em : ExtendedMantissa} {q : ℚ}
    (describes : Describes em q) : em.mantissa ≤ q ∧ q < em.mantissa + 1 := by
  obtain ⟨m, round, sticky⟩ := em
  change Residue round sticky (q - m) at describes
  generalize isPart : q - m = part at describes
  cases describes <;> constructor <;> dsimp only <;> linarith

theorem targetExponent_described {spec : Format} {em : ExtendedMantissa}
    {v : ℚ} {e : ℤ} (positive : 0 < v) (describes : Describes em (v / 2 ^ e))
    (low : e ≤ exponentAt spec v) :
    spec.targetExponent (totalExponent em.mantissa e) = exponentAt spec v := by
  have scale : (0 : ℚ) < 2 ^ e := zpow_pos two_pos e
  obtain ⟨atLeast, below⟩ := describes.bounds
  rw [le_div_iff₀ scale] at atLeast
  rw [div_lt_iff₀ scale] at below
  have some : 1 ≤ spec.mantissaBits := Nat.le_add_right 1 _
  by_cases isZero : em.mantissa = 0
  · rw [isZero] at below ⊢
    have less : Int.log 2 v < e := by
      rw [← Int.lt_zpow_iff_log_lt Nat.one_lt_two positive]
      push_cast at below ⊢
      linarith
    unfold exponentAt Format.targetExponent totalExponent at *
    rw [Nat.log2_zero]
    omega
  · have lower : 2 ^ em.mantissa.log2 ≤ em.mantissa := Nat.log2_self_le isZero
    have upper : em.mantissa + 1 ≤ 2 ^ (em.mantissa.log2 + 1) :=
      Nat.lt_log2_self
    have isLog : Int.log 2 v = em.mantissa.log2 + e := by
      apply log_eq
      · rw [zpow_add₀ two_ne_zero, zpow_natCast]
        refine le_trans (mul_le_mul_of_nonneg_right ?_ scale.le) atLeast
        exact_mod_cast lower
      · rw [add_right_comm, zpow_add₀ two_ne_zero]
        refine lt_of_lt_of_le below (mul_le_mul_of_nonneg_right ?_ scale.le)
        exact_mod_cast upper
    unfold exponentAt totalExponent
    rw [isLog, add_right_comm]

theorem mantissa_ofMantissaAndAccuracy (mantissa : ℕ) (accuracy : Accuracy) :
    (ExtendedMantissa.ofMantissaAndAccuracy mantissa accuracy).mantissa =
      mantissa := by
  cases accuracy with
  | exact => rfl
  | inexact ordering => cases ordering <;> rfl

/-- **The result depends on the number only**, if the exponent is low
enough. -/
theorem roundWithAccuracy_nearest {spec : Format} {mantissa : ℕ} {e : ℤ}
    {accuracy : Accuracy} {v : ℚ} (sign : Sign) (positive : 0 < v)
    (describes : Describes
      (ExtendedMantissa.ofMantissaAndAccuracy mantissa accuracy) (v / 2 ^ e))
    (low : e ≤ exponentAt spec v) :
    roundWithAccuracy spec sign mantissa e accuracy = nearest spec sign v := by
  have target := targetExponent_described positive describes low
  rw [mantissa_ofMantissaAndAccuracy] at target
  have shifted : shiftToTargetExponent spec mantissa e accuracy =
      (ExtendedMantissa.ofMantissaAndAccuracy mantissa accuracy >>>
        (exponentAt spec v - e).toNat, exponentAt spec v) := by
    unfold shiftToTargetExponent shiftToExponent
    dsimp only
    rw [target, Int.toNat_of_nonneg (by omega), add_sub_cancel]
  have rounded := (describes.shiftRight
    (exponentAt spec v - e).toNat).roundedMantissa
  have scaled : v / 2 ^ e / 2 ^ (exponentAt spec v - e).toNat =
      v / 2 ^ exponentAt spec v := by
    rw [div_div, ← zpow_natCast, Int.toNat_of_nonneg (by omega),
      ← zpow_add₀ two_ne_zero, add_sub_cancel]
  rw [scaled] at rounded
  unfold roundWithAccuracy nearest settle
  simp only [shifted]
  rw [← rounded, Int.toNat_natCast]

private theorem describes_scaled (mantissa : ℕ) (e : ℤ) :
    Describes (ExtendedMantissa.ofMantissaAndAccuracy mantissa .exact)
      (mantissa * 2 ^ e / 2 ^ e) := by
  rw [mul_div_cancel_right₀ _ (zpow_ne_zero e two_ne_zero)]
  exact describes_exact mantissa

theorem round_exact {spec : Format} {mantissa : ℕ} {e : ℤ} (sign : Sign)
    (above : 0 < mantissa)
    (low : e ≤ exponentAt spec (mantissa * 2 ^ e)) :
    roundWithAccuracy spec sign mantissa e .exact =
      nearest spec sign (mantissa * 2 ^ e) := by
  have positive : (0 : ℚ) < mantissa * 2 ^ e :=
    mul_pos (by exact_mod_cast above) (zpow_pos two_pos e)
  exact roundWithAccuracy_nearest sign positive (describes_scaled mantissa e)
    low

theorem targetExponent_mono {spec : Format} {e f : ℤ} (order : e ≤ f) :
    spec.targetExponent e ≤ spec.targetExponent f := by
  unfold Format.targetExponent
  omega

/-- The exponent of a mantissa with enough digits is low enough. -/
theorem low_of_long {spec : Format} {mantissa : ℕ} {e : ℤ}
    (long : 2 ^ (spec.mantissaBits - 1) ≤ mantissa) :
    e ≤ exponentAt spec (mantissa * 2 ^ e) := by
  have some : 1 ≤ spec.mantissaBits := Nat.le_add_right 1 _
  have atLeast : (2 : ℚ) ^ ((spec.mantissaBits : ℤ) - 1 + e) ≤
      mantissa * 2 ^ e := by
    rw [zpow_add₀ two_ne_zero]
    refine mul_le_mul_of_nonneg_right ?_ (zpow_pos two_pos e).le
    rw [← Nat.cast_one, ← Nat.cast_sub some, zpow_natCast]
    exact_mod_cast long
  have isLog := le_log atLeast
  unfold exponentAt Format.targetExponent
  omega

/-- **Division gives the float nearest to the quotient.** -/
theorem div_nearest (spec : Format) (sign other : Sign) {m n : ℕ} (e f : ℤ)
    (above : 0 < m) (above' : 0 < n) :
    UnpackedFloat.div spec (.finite sign m e above) (.finite other n f above') =
      nearest spec (sign / other) (m * 2 ^ e / (n * 2 ^ f)) := by
  have positive : (0 : ℚ) < m := by exact_mod_cast above
  have positive' : (0 : ℚ) < n := by exact_mod_cast above'
  have scale : (0 : ℚ) < 2 ^ e := zpow_pos two_pos e
  have scale' : (0 : ℚ) < 2 ^ f := zpow_pos two_pos f
  unfold UnpackedFloat.div divCore
  dsimp only
  generalize isTarget : min (e - f)
    (spec.targetExponent (totalExponent m e - totalExponent n f)) = target
  apply roundWithAccuracy_nearest _ (by positivity)
  · have shift : (2 : ℚ) ^ e / 2 ^ f / 2 ^ target =
        (2 ^ (e - f - target).toNat : ℕ) := by
      rw [← zpow_sub₀ two_ne_zero, ← zpow_sub₀ two_ne_zero]
      have cast : ((e - f - target).toNat : ℤ) = e - f - target :=
        Int.toNat_of_nonneg (by omega)
      push_cast
      rw [← zpow_natCast, cast]
    have quotient : (m * 2 ^ e / (n * 2 ^ f) / 2 ^ target : ℚ) =
        (m <<< (e - f - target).toNat / n : ℕ) +
          (m <<< (e - f - target).toNat % n : ℕ) / (n : ℚ) := by
      rw [Nat.shiftLeft_eq]
      generalize (e - f - target).toNat = k at shift
      have division : ((m * 2 ^ k : ℕ) : ℚ) =
          n * (m * 2 ^ k / n : ℕ) + (m * 2 ^ k % n : ℕ) := by
        exact_mod_cast (Nat.div_add_mod (m * 2 ^ k) n).symm
      rw [mul_div_mul_comm, mul_div_assoc, shift, div_mul_eq_mul_div,
        ← Nat.cast_mul, division, add_div, mul_div_cancel_left₀ _ positive'.ne']
    rw [quotient]
    exact describes_fraction _ (Nat.mod_lt _ above')
  · have lower : 2 ^ m.log2 ≤ m := Nat.log2_self_le above.ne'
    have upper : n < 2 ^ (n.log2 + 1) := Nat.lt_log2_self
    have atLeast : (2 : ℚ) ^ ((m.log2 : ℤ) + e - (n.log2 + 1 + f)) ≤
        m * 2 ^ e / (n * 2 ^ f) := by
      rw [zpow_sub₀ two_ne_zero, zpow_add₀ two_ne_zero, zpow_add₀ two_ne_zero]
      refine div_le_div₀ (by positivity)
        (mul_le_mul_of_nonneg_right ?_ scale.le) (by positivity)
        (mul_le_mul_of_nonneg_right ?_ scale'.le)
      · rw [zpow_natCast]
        exact_mod_cast lower
      · exact_mod_cast upper.le
    have isLog := le_log atLeast
    have order := @targetExponent_mono spec
      (totalExponent m e - totalExponent n f)
      (Int.log 2 (m * 2 ^ e / (n * 2 ^ f) : ℚ) + 1) (by
        unfold totalExponent
        omega)
    unfold exponentAt
    omega

/-- The mantissa and the exponent of a float. -/
structure Canonical (mantissa : ℕ) (e : ℤ) : Prop where
  small : mantissa < 2 ^ 53
  least : -1074 ≤ e
  full : 2 ^ 52 ≤ mantissa ∨ e = -1074

section

variable {m : ℕ} {e : ℤ} (sign : Sign)

theorem exponentAt_eq (v : ℚ) :
    exponentAt .binary64 v = max (Int.log 2 v - 52) (-1074) := by
  unfold exponentAt Format.targetExponent
  have bits : (Format.binary64.mantissaBits : ℤ) = 53 := rfl
  have least : Format.binary64.minExponent = -1074 := rfl
  rw [bits, least]
  congr 1
  ring

/-- How many digits are too many. -/
def excess (m : ℕ) (e : ℤ) : ℕ :=
  (max ((m.log2 : ℤ) - 52) (-1074 - e)).toNat

theorem shiftToTargetExponent_eq (m : ℕ) (e : ℤ) :
    shiftToTargetExponent .binary64 m e .exact =
      (ExtendedMantissa.ofMantissaAndAccuracy m .exact >>> excess m e,
        e + excess m e) := by
  have amount : Format.binary64.targetExponent (totalExponent m e) - e =
      max ((m.log2 : ℤ) - 52) (-1074 - e) := by
    unfold Format.targetExponent totalExponent
    have bits : (Format.binary64.mantissaBits : ℤ) = 53 := rfl
    have least : Format.binary64.minExponent = -1074 := rfl
    rw [bits, least]
    omega
  unfold shiftToTargetExponent shiftToExponent excess
  dsimp only
  rw [amount]

private theorem mantissa_shiftRight (em : ExtendedMantissa) (n : ℕ) :
    (em >>> n).mantissa = em.mantissa / 2 ^ n := by
  induction n with
  | zero => exact (Nat.div_one _).symm
  | succ n induction =>
      change (em >>> n).mantissa / 2 = _
      rw [induction, Nat.div_div_eq_div_mul, pow_succ]

theorem settle_eq (m : ℕ) (e : ℤ) :
    settle .binary64 sign m e =
      if above : m / 2 ^ excess m e = 0 then .zero sign
      else .finite sign (m / 2 ^ excess m e) (e + excess m e)
        (Nat.pos_of_ne_zero above) := by
  unfold settle
  simp only [shiftToTargetExponent_eq, mantissa_shiftRight,
    mantissa_ofMantissaAndAccuracy]

theorem settle_of_lt (small : m < 2 ^ 53) (least : -1074 ≤ e) (above : 0 < m) :
    settle .binary64 sign m e = .finite sign m e above := by
  have short : m.log2 < 53 := (Nat.log2_lt above.ne').mpr small
  have none : excess m e = 0 := by
    unfold excess
    omega
  rw [settle_eq]
  simp [none, above.ne']

theorem settle_zero (e : ℤ) :
    settle .binary64 sign 0 e = .zero sign := by
  rw [settle_eq]
  simp

theorem settle_pow (least : -1074 ≤ e) :
    settle .binary64 sign (2 ^ 53) e =
      .finite sign (2 ^ 52) (e + 1) (by norm_num) := by
  have one : excess (2 ^ 53) e = 1 := by
    unfold excess
    rw [Nat.log2_two_pow]
    omega
  rw [settle_eq]
  simp only [one]
  rfl

/-- Rounding a number between two powers of two. -/
theorem nearest_of_log {v : ℚ} {k : ℤ} {n : ℕ} (isLog : Int.log 2 v = k)
    (isExponent : max (k - 52) (-1074) = e)
    (near : |v / 2 ^ e - n| < 1 / 2) :
    nearest .binary64 sign v = settle .binary64 sign n e := by
  have rounded : halfEven (v / 2 ^ e) = n :=
    halfEven_of_near (by exact_mod_cast near)
  unfold nearest
  rw [exponentAt_eq, isLog, isExponent, rounded, Int.toNat_natCast]

/-- **A number close to a float is rounded to it.** -/
theorem nearest_of_close (canonical : Canonical m e) (above : 0 < m) {v : ℚ}
    (close : |v - m * 2 ^ e| < m * 2 ^ e / 2 ^ 54) :
    nearest .binary64 sign v = .finite sign m e above := by
  obtain ⟨small, least, full⟩ := canonical
  have scale : (0 : ℚ) < 2 ^ e := zpow_pos two_pos e
  have some : (1 : ℚ) ≤ m := by exact_mod_cast above
  have smallCast : (m : ℚ) + 1 ≤ 2 ^ 53 := by exact_mod_cast small
  obtain ⟨w, rfl⟩ : ∃ w, v = w * 2 ^ e :=
    ⟨v / 2 ^ e, (div_mul_cancel₀ v scale.ne').symm⟩
  have near : |w - m| < m / 2 ^ 54 := by
    rw [← sub_mul, abs_mul, abs_of_pos scale, mul_div_right_comm] at close
    exact lt_of_mul_lt_mul_right close scale.le
  obtain ⟨left, right⟩ := abs_lt.mp near
  norm_num at left right smallCast
  have below : ∀ k : ℤ, w < 2 ^ k → w * 2 ^ e < 2 ^ (k + e) := by
    intro k less
    rw [zpow_add₀ two_ne_zero]
    exact mul_lt_mul_of_pos_right less scale
  have atLeast : ∀ k : ℤ, 2 ^ k ≤ w → 2 ^ (k + e) ≤ w * 2 ^ e := by
    intro k more
    rw [zpow_add₀ two_ne_zero]
    exact mul_le_mul_of_nonneg_right more scale.le
  have upper := below 53 (by norm_num; linarith)
  have positive : 0 < w * 2 ^ e := mul_pos (by linarith) scale
  have isBelow := (Int.lt_zpow_iff_log_lt Nat.one_lt_two positive).mp
    (by exact_mod_cast upper)
  by_cases inRange : 2 ^ 52 ≤ w ∨ e = -1074
  · have isExponent : max (Int.log 2 (w * 2 ^ e) - 52) (-1074) = e := by
      rcases inRange with large | subnormal
      · have isAbove := le_log (atLeast 52 (by exact_mod_cast large))
        omega
      · omega
    rw [nearest_of_log sign rfl isExponent, settle_of_lt sign small least above]
    rw [mul_div_cancel_right₀ _ scale.ne']
    exact near.trans_le (by norm_num; linarith)
  · obtain ⟨less, normal⟩ := not_or.mp inRange
    norm_num at less
    have isPower : m = 2 ^ 52 := by
      have atLeast := full.resolve_right normal
      have atMost : (m : ℚ) < 2 ^ 52 + 1 := by linarith
      have atMost' : m < 2 ^ 52 + 1 := by exact_mod_cast atMost
      omega
    subst isPower
    norm_num at left right
    have isLog : Int.log 2 (w * 2 ^ e) = 51 + e := by
      apply log_eq (atLeast 51 (by norm_num; linarith))
      exact (below 52 (by norm_num; exact less)).trans_eq (by ring_nf)
    have isExponent : max (51 + e - 52) (-1074) = e - 1 := by omega
    have doubled : w * 2 ^ e / 2 ^ (e - 1) = 2 * w := by
      rw [zpow_sub_one₀ two_ne_zero]
      field_simp
    rw [@nearest_of_log _ sign _ _ (2 ^ 53) isLog isExponent,
      settle_pow sign (by omega)]
    · congr 1
      omega
    · rw [doubled, abs_lt]
      norm_num
      constructor <;> linarith

end

end Arithmetic
