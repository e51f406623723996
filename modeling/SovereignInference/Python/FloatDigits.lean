import SovereignInference.Arithmetic.DecimalFloat
import SovereignInference.Python.DecimalContext
import SovereignInference.Python.JsonNumbers

/-!
# The digits of a float
-/

namespace Python

open Arithmetic
open Float.Model
open Float.Model.UnpackedFloat (Sign packComponents unpackSign unpackExponent
  unpackMantissa)

/-- The magnitude of a finite float. -/
def floatMagnitude (x : Float) : ℚ :=
  (floatScaled x 0).1 / (floatScaled x 0).2

theorem floatScaled_pos (x : Float) (places : Int) :
    0 < (floatScaled x places).2 :=
  Nat.mul_pos (Nat.two_pow_pos _) (Nat.pow_pos (by decide))

theorem zpow_parts {base : ℚ} (positive : 0 < base) (k : ℤ) :
    base ^ k.toNat / base ^ (-k).toNat = base ^ k := by
  rw [← zpow_natCast, ← zpow_natCast, ← zpow_sub₀ positive.ne']
  congr 1
  omega

theorem floatScaled_value (x : Float) (places : Int) :
    ((floatScaled x places).1 : ℚ) / (floatScaled x places).2 =
      floatMagnitude x * 10 ^ places := by
  have ten := @zpow_parts 10 (by norm_num) places
  unfold floatMagnitude floatScaled
  dsimp only
  push_cast
  rw [mul_div_mul_comm, ten]
  simp

/-- The magnitude in terms of the parts of the bits. -/
theorem floatMagnitude_parts {x : Float} {biased fraction : ℕ}
    (isBiased : (@unpackExponent .binary64
      x.toModel.toBits.toBitVec).toNat = biased)
    (isFraction : (@unpackMantissa .binary64
      x.toModel.toBits.toBitVec).toNat = fraction) :
    floatMagnitude x =
      (if biased = 0 then fraction else fraction + 2 ^ 52 : ℕ) *
        2 ^ ((max biased 1 : ℕ) - 1075 : ℤ) := by
  have two := @zpow_parts 2 two_pos
    ((max biased 1 : ℕ) - 1075 : ℤ)
  rw [toNat_unpackExponent] at isBiased
  rw [toNat_unpackMantissa] at isFraction
  have bits : x.toBits.toNat = x.toModel.toBits.toBitVec.toNat := rfl
  unfold floatMagnitude floatScaled
  dsimp only
  rw [bits, isBiased, isFraction]
  push_cast at two ⊢
  rw [mul_div_mul_comm, mul_div_assoc, two]
  simp

theorem unpacked_magnitude {x : Float} {sign : Sign} {m : ℕ} {e : ℤ}
    {above : 0 < m} (read : unpacked x = .finite sign m e above) :
    floatMagnitude x = m * 2 ^ e := by
  rw [floatMagnitude_parts rfl rfl]
  change UnpackedFloat.unpack .binary64 x.toModel.toBits.toBitVec = _ at read
  generalize x.toModel.toBits.toBitVec = b at read
  unfold UnpackedFloat.unpack at read
  dsimp only at read
  split_ifs at read with infinite none zero none'
  · cases read
    have isZero : (@unpackExponent .binary64 b).toNat = 0 := by
      rw [zero]
      rfl
    have bias : ((Format.binary64.exponentBias : ℕ) : ℤ) = 1023 := rfl
    rw [isZero, if_pos rfl, bias]
    rfl
  · cases read
    have positive : (@unpackExponent .binary64 b).toNat ≠ 0 := by
      intro isZero
      exact zero (BitVec.eq_of_toNat_eq isZero)
    have bias : ((Format.binary64.exponentBias : ℕ) : ℤ) = 1023 := rfl
    rw [if_neg positive, toNat_full, Nat.max_eq_left (by omega), bias,
      add_comm]
    rfl

theorem unpacked_zero_magnitude {x : Float} {sign : Sign}
    (read : unpacked x = .zero sign) : floatMagnitude x = 0 := by
  rw [floatMagnitude_parts rfl rfl]
  change UnpackedFloat.unpack .binary64 x.toModel.toBits.toBitVec = _ at read
  generalize x.toModel.toBits.toBitVec = b at read
  unfold UnpackedFloat.unpack at read
  dsimp only at read
  split_ifs at read with infinite none zero none'
  rw [zero, none']
  simp

theorem roundHalfEven_near (numerator : ℕ) {denominator : ℕ}
    (positive : 0 < denominator) :
    |(roundHalfEven numerator denominator : ℚ) - numerator / denominator| ≤
      1 / 2 := by
  have scale : (0 : ℚ) < denominator := by exact_mod_cast positive
  have division : (numerator : ℚ) =
      denominator * (numerator / denominator : ℕ) +
        (numerator % denominator : ℕ) := by
    exact_mod_cast (Nat.div_add_mod numerator denominator).symm
  have proper : numerator % denominator < denominator :=
    Nat.mod_lt _ positive
  rw [← mul_le_mul_iff_of_pos_right scale, ← abs_of_pos scale, ← abs_mul,
    abs_of_pos scale, sub_mul, div_mul_cancel₀ _ scale.ne', abs_le]
  unfold roundHalfEven
  dsimp only
  generalize numerator / denominator = floor at division ⊢
  generalize numerator % denominator = rest at division proper ⊢
  rw [division]
  have bound : (rest : ℚ) < denominator := by exact_mod_cast proper
  split_ifs with low high
  · have less : (2 * rest : ℚ) < denominator := by exact_mod_cast low
    constructor <;> linarith [Nat.cast_nonneg (α := ℚ) rest]
  · have more : (denominator : ℚ) < 2 * rest := by exact_mod_cast high
    push_cast
    constructor <;> linarith
  · have same : (denominator : ℚ) = 2 * rest := by
      exact_mod_cast (by omega : denominator = 2 * rest)
    push_cast
    rcases Nat.mod_two_eq_zero_or_one floor with even | odd
    · rw [even]
      push_cast
      constructor <;> linarith
    · rw [odd]
      push_cast
      constructor <;> linarith

/-- The digits are read as the float. -/
def ReadsBack (x : Float) (digits : ℕ) (places : ℤ) : Prop :=
  decimalFloat digits (-places) = unsigned x

theorem readsBack_iff {x : Float} (number : IsNumber x) (digits : ℕ)
    (places : ℤ) :
    ((Float.ofScientific digits (0 < places) places.natAbs).toBits.toNat ==
      x.toBits.toNat % 2 ^ 63) = true ↔ ReadsBack x digits places := by
  have same : Float.ofScientific digits (0 < places) places.natAbs =
      decimalFloat digits (-places) := by
    unfold decimalFloat
    rw [Int.natAbs_neg]
    simp only [Int.neg_neg_iff_pos]
  rw [same, beq_iff_eq, eq_unsigned_iff number]
  rfl

/-- Any digits that are found read back. -/
theorem shortestWith_reads {x : Float} (number : IsNumber x) {leading : ℤ}
    {count digits : ℕ} (found : shortestWith x leading count = some digits) :
    ReadsBack x digits (count - 1 - leading) := by
  unfold shortestWith at found
  have reads := List.find?_some found
  exact (readsBack_iff number digits _).mp reads

/-- With seventeen digits the nearest decimal reads back. -/
theorem shortestWith_isSome {x : Float} {sign : Sign} {m : ℕ} {e : ℤ}
    {above : 0 < m} (read : unpacked x = .finite sign m e above)
    {leading : ℤ} (atMost : 10 ^ leading ≤ floatMagnitude x) :
    (shortestWith x leading 17).isSome := by
  have number : IsNumber x := ⟨sign, by rw [read]; rfl⟩
  have plain : unpacked (unsigned x) = .finite .positive m e above := by
    rw [unpacked_unsigned, read]
    rfl
  let places : ℤ := (17 : ℕ) - 1 - leading
  let scaled := floatScaled x places
  have unit : (0 : ℚ) < 10 ^ (-places) := zpow_pos (by norm_num) _
  have rounded := roundHalfEven_near scaled.1 (floatScaled_pos x places)
  rw [floatScaled_value] at rounded
  have small : (10 : ℚ) ^ (-places) ≤ floatMagnitude x / 10 ^ 16 := by
    have split : (10 : ℚ) ^ (-places) = 10 ^ leading / 10 ^ 16 := by
      rw [← zpow_natCast, ← zpow_sub₀ (by norm_num)]
      congr 1
      simp only [places]
      omega
    rw [split]
    exact div_le_div_of_nonneg_right atMost (by norm_num)
  have positive : 0 < floatMagnitude x :=
    (zpow_pos (by norm_num) _).trans_le atMost
  have reads : ReadsBack x (roundHalfEven scaled.1 scaled.2) places := by
    apply decimalFloat_close plain
    rw [← unpacked_magnitude read]
    have whole : floatMagnitude x =
        floatMagnitude x * 10 ^ places * 10 ^ (-places) := by
      rw [mul_assoc, ← zpow_add₀ (by norm_num), add_neg_cancel, zpow_zero,
        mul_one]
    calc |(roundHalfEven scaled.1 scaled.2 : ℚ) * 10 ^ (-places) -
            floatMagnitude x|
        = |(roundHalfEven scaled.1 scaled.2 : ℚ) -
            floatMagnitude x * 10 ^ places| * 10 ^ (-places) := by
          conv_lhs => rw [whole, ← sub_mul, abs_mul, abs_of_pos unit]
      _ ≤ 1 / 2 * 10 ^ (-places) :=
          mul_le_mul_of_nonneg_right rounded unit.le
      _ ≤ 1 / 2 * (floatMagnitude x / 10 ^ 16) := by gcongr
      _ < floatMagnitude x / 2 ^ 54 := by linarith
  unfold shortestWith
  rw [List.find?_isSome]
  exact ⟨_, List.mem_cons_self, (readsBack_iff number _ _).mpr reads⟩

private theorem leadingExponent_le {numerator denominator : ℕ}
    (nonzero : numerator ≠ 0) (positive : 0 < denominator) :
    (10 : ℚ) ^ leadingExponent numerator denominator ≤
      numerator / denominator := by
  have scale : (0 : ℚ) < denominator := by exact_mod_cast positive
  unfold leadingExponent
  dsimp only
  split_ifs with enough
  · rw [← zpow_parts (by norm_num), div_le_div_iff₀ (by positivity) scale,
      mul_comm]
    exact_mod_cast enough
  · have least := Decimal.pow_length_natText_le nonzero
    have below := Decimal.lt_pow_length_natText denominator
    have long := Decimal.length_natText_pos numerator
    have split : (10 : ℚ) ^ (((natText numerator).length : ℤ) -
        (natText denominator).length - 1) =
        10 ^ ((natText numerator).length - 1) /
          10 ^ (natText denominator).length := by
      rw [← zpow_natCast, ← zpow_natCast, ← zpow_sub₀ (by norm_num)]
      congr 1
      omega
    rw [split]
    apply div_le_div₀ (by positivity) _ scale
    · exact_mod_cast below.le
    · exact_mod_cast least

/-- The digits of a finite float are found. -/
theorem shortestDigits_finite {x : Float} {sign : Sign} {m : ℕ} {e : ℤ}
    {above : 0 < m} (read : unpacked x = .finite sign m e above) :
    ∃ value places, ReadsBack x value places ∧
      shortestDigits x = (rstrip 0x30 (natText value),
        (natText value).length - places) := by
  have number : IsNumber x := ⟨sign, by rw [read]; rfl⟩
  have magnitude := unpacked_magnitude read
  have positive : 0 < floatMagnitude x := by
    rw [magnitude]
    positivity
  have nonzero : (floatScaled x 0).1 ≠ 0 := by
    intro zero
    unfold floatMagnitude at positive
    rw [zero, Nat.cast_zero, zero_div] at positive
    exact positive.false
  have some := shortestWith_isSome read
    (leadingExponent_le nonzero (floatScaled_pos x 0))
  unfold shortestDigits
  dsimp only
  rw [if_neg nonzero]
  split
  case h_1 _ none =>
      rw [List.findSome?_eq_none_iff] at none
      have last := none 16 (List.mem_range.mpr (by decide))
      rw [Option.map_eq_none_iff] at last
      rw [last] at some
      cases some
  case h_2 _ value places found =>
      obtain ⟨count, _, mapped⟩ := List.exists_of_findSome?_eq_some found
      obtain ⟨digits, isShort, same⟩ := Option.map_eq_some_iff.mp mapped
      cases same
      have reads := shortestWith_reads number isShort
      push_cast at reads
      rw [add_sub_cancel_right] at reads
      exact ⟨value, _, reads, rfl⟩

/-- Digits with the point at a position are those of a float. -/
structure DigitsOf (x : Float) (digits : Text) (point : ℤ) : Prop where
  isDigits : IsDigits digits
  nonempty : digits ≠ []
  leading : digits.head? ≠ some 0x30 ∨ (digits = [0x30] ∧ point = 1)
  reads : ReadsBack x (digitsValue digits) (digits.length - point)

private theorem readsBack_zero {x : Float} {sign : Sign}
    (read : unpacked x = .zero sign) (places : ℤ) : ReadsBack x 0 places := by
  apply eq_of_unpacked
  rw [decimalFloat_zero, unpacked_unsigned, read]
  rfl

theorem shortestDigits_digitsOf {x : Float} (isFinite : x.isFinite = true) :
    DigitsOf x (shortestDigits x).1 (shortestDigits x).2 := by
  change (unpacked x).isFinite = true at isFinite
  cases read : unpacked x with
  | infinity sign =>
      rw [read] at isFinite
      cases isFinite
  | notANumber =>
      rw [read] at isFinite
      cases isFinite
  | zero sign =>
      have scale : ((floatScaled x 0).2 : ℚ) ≠ 0 := by
        exact_mod_cast (floatScaled_pos x 0).ne'
      have none : (floatScaled x 0).1 = 0 := by
        have magnitude := unpacked_zero_magnitude read
        unfold floatMagnitude at magnitude
        rw [div_eq_zero_iff, or_iff_left scale] at magnitude
        exact_mod_cast magnitude
      have written : shortestDigits x = ([0x30], 1) := by
        unfold shortestDigits
        dsimp only
        rw [if_pos none]
      rw [written]
      exact ⟨List.forall_mem_singleton.mpr rfl, List.cons_ne_nil _ _,
        .inr ⟨rfl, rfl⟩, readsBack_zero read _⟩
  | finite sign m e above =>
      obtain ⟨value, places, reads, written⟩ := shortestDigits_finite read
      rw [written]
      obtain ⟨count, stripped⟩ :=
        exists_replicate_rstrip 0x30 (natText value)
      have isDigits := isDigits_natText value
      have isWhole := Json.natText_isWhole value
      have isValue := digitsValue_natText value
      have nonzero : value ≠ 0 := by
        rintro rfl
        have same := congrArg unpacked reads
        rw [decimalFloat_zero, unpacked_unsigned, read] at same
        cases same
      generalize rstrip 0x30 (natText value) = digits at stripped ⊢
      rw [stripped] at isDigits isWhole isValue ⊢
      rw [digitsValue_append, digitsValue_replicate, List.length_replicate,
        add_zero] at isValue
      have nonempty : digits ≠ [] := by
        rintro rfl
        apply nonzero
        rw [← isValue]
        exact Nat.zero_mul _
      refine ⟨fun c member => isDigits c (List.mem_append_left _ member),
        nonempty, .inl ?_, ?_⟩
      · rcases isWhole with zero | ⟨_, _, notZero⟩
        · apply absurd _ nonzero
          rw [zero] at stripped
          rw [← digitsValue_natText value, stripped]
          rfl
        · rwa [List.head?_append_of_ne_nil _ nonempty] at notZero
      · unfold ReadsBack at reads ⊢
        rw [← reads]
        apply decimalFloat_congr
        rw [← isValue, List.length_append, List.length_replicate]
        push_cast
        rw [mul_assoc, ← zpow_natCast, ← zpow_add₀ (by norm_num)]
        congr 2
        ring

end Python
