import Mathlib.Tactic.IntervalCases
import SovereignInference.Arithmetic.NearestFloat

/-!
# Decimals read as floats

`Float.ofScientific` gives the float nearest to the decimal, also where it
multiplies or divides two floats to that end.  So it depends on the number
only, and gives back a float that is close enough.
-/

namespace Arithmetic

open Float.Model
open Float.Model.UnpackedFloat

private theorem unpack_canonical {b : BitVec Format.binary64.numBits}
    {sign : Sign} {m : ℕ} {e : ℤ} {above : 0 < m}
    (read : UnpackedFloat.unpack .binary64 b = .finite sign m e above) :
    Canonical m e ∧ e ≤ 971 := by
  have small : (unpackMantissa b).toNat < 2 ^ 52 := (unpackMantissa b).isLt
  have narrow : (unpackExponent b).toNat < 2 ^ 11 := (unpackExponent b).isLt
  unfold UnpackedFloat.unpack at read
  dsimp only at read
  split_ifs at read with infinite none zero none'
  · cases read
    have bias : ((Format.binary64.exponentBias : ℕ) : ℤ) = 1023 := rfl
    have digits : ((52 : ℕ) : ℤ) = 52 := rfl
    rw [zero, bias, digits]
    have none : (0#11).toNat = 0 := rfl
    exact ⟨⟨by omega, by omega, .inr (by omega)⟩, by omega⟩
  · cases read
    have whole : (1#1 ++ unpackMantissa b).toNat =
        2 ^ 52 + (unpackMantissa b).toNat := toNat_full _
    have bias : ((Format.binary64.exponentBias : ℕ) : ℤ) = 1023 := rfl
    rw [whole]
    have all : (-1#11 : BitVec 11).toNat = 2047 := rfl
    have isFinite : (unpackExponent b).toNat ≠ 2047 := by
      intro same
      exact infinite (BitVec.eq_of_toNat_eq same)
    have positive : (unpackExponent b).toNat ≠ 0 := by
      intro same
      exact zero (BitVec.eq_of_toNat_eq same)
    exact ⟨⟨by omega, by omega, .inl (by omega)⟩, by omega⟩

theorem finite_canonical {x : Float} {sign : Sign} {m : ℕ} {e : ℤ}
    {above : 0 < m} (read : unpacked x = .finite sign m e above) :
    Canonical m e ∧ e ≤ 971 := unpack_canonical read

theorem finite_congr {sign : Sign} {m n : ℕ} {e f : ℤ} {above : 0 < m}
    {above' : 0 < n} (sameMantissa : m = n) (sameExponent : e = f) :
    UnpackedFloat.finite sign m e above = .finite sign n f above' := by
  subst sameMantissa sameExponent
  rfl

/-- Every canonical number has bits. -/
theorem exists_unpack {m : ℕ} {e : ℤ} (canonical : Canonical m e)
    (small : e ≤ 971) (sign : Sign) (above : 0 < m) :
    ∃ b, UnpackedFloat.unpack .binary64 b = .finite sign m e above := by
  obtain ⟨narrow, least, full⟩ := canonical
  have bias : ((Format.binary64.exponentBias : ℕ) : ℤ) = 1023 := rfl
  by_cases normal : 2 ^ 52 ≤ m
  · have isExponent : (BitVec.ofNat 11 (e + 1075).toNat).toNat =
        (e + 1075).toNat := by
      rw [BitVec.toNat_ofNat, Nat.mod_eq_of_lt (by omega)]
    have isMantissa : (BitVec.ofNat 52 m).toNat = m - 2 ^ 52 := by
      rw [BitVec.toNat_ofNat]
      omega
    refine ⟨packComponents .binary64 sign (BitVec.ofNat 11 (e + 1075).toNat)
      (BitVec.ofNat 52 m), ?_⟩
    unfold UnpackedFloat.unpack
    simp only [UnpackedFloat.unpackMantissa_packComponents,
      UnpackedFloat.unpackExponent_packComponents, unpackSign_packComponents,
      ofBitVec_toBitVec]
    rw [if_neg, if_neg]
    · apply finite_congr
      · rw [toNat_full, isMantissa]
        omega
      · rw [isExponent, bias]
        omega
    · intro isZero
      have none := congrArg BitVec.toNat isZero
      rw [isExponent, BitVec.toNat_ofNat] at none
      omega
    · exact ofNat_ne_neg_one (by omega)
  · have isMantissa : (BitVec.ofNat 52 m).toNat = m := by
      rw [BitVec.toNat_ofNat, Nat.mod_eq_of_lt (by omega)]
    refine ⟨packComponents .binary64 sign 0#11 (BitVec.ofNat 52 m), ?_⟩
    unfold UnpackedFloat.unpack
    simp only [UnpackedFloat.unpackMantissa_packComponents,
      UnpackedFloat.unpackExponent_packComponents, unpackSign_packComponents,
      ofBitVec_toBitVec]
    have notZero : BitVec.ofNat 52 m ≠ 0#52 := by
      intro isZero
      have none := congrArg BitVec.toNat isZero
      rw [isMantissa, BitVec.toNat_ofNat] at none
      omega
    rw [if_neg (by decide), if_pos trivial, dif_neg notZero]
    apply finite_congr isMantissa
    rw [bias]
    have none : (0#11).toNat = 0 := rfl
    omega

/-- A canonical number reads back from its bits. -/
theorem repacked_canonical {m : ℕ} {e : ℤ} (canonical : Canonical m e)
    (small : e ≤ 971) (sign : Sign) (above : 0 < m) :
    repacked (.finite sign m e above) = .finite sign m e above := by
  obtain ⟨b, read⟩ := exists_unpack canonical small sign above
  have packed := repacked_signed b sign
  rw [read] at packed
  exact packed

theorem nearest_zero (sign : Sign) :
    nearest .binary64 sign 0 = .zero sign := by
  unfold nearest
  rw [zero_div, ← Int.cast_zero, halfEven_intCast]
  exact settle_zero sign _

/-- A number below half of the least float is rounded to zero. -/
theorem nearest_tiny (sign : Sign) {v : ℚ} (nonneg : 0 ≤ v)
    (tiny : v < 2 ^ (-1075 : ℤ)) : nearest .binary64 sign v = .zero sign := by
  rcases nonneg.eq_or_lt with rfl | positive
  · exact nearest_zero sign
  · have isLog := (Int.lt_zpow_iff_log_lt Nat.one_lt_two positive).mp
      (by exact_mod_cast tiny)
    have isExponent : max (Int.log 2 v - 52) (-1074) = -1074 := by omega
    have scale : (0 : ℚ) < 2 ^ (-1074 : ℤ) := zpow_pos two_pos _
    have half : (2 : ℚ) ^ (-1075 : ℤ) = 1 / 2 * 2 ^ (-1074 : ℤ) := by
      have isNext : (-1075 : ℤ) = -1074 - 1 := rfl
      rw [isNext, zpow_sub_one₀ two_ne_zero, mul_comm, one_div]
    rw [@nearest_of_log _ sign v _ 0 rfl isExponent, settle_zero]
    rw [Nat.cast_zero, sub_zero, abs_of_pos (div_pos positive scale),
      div_lt_iff₀ scale, ← half]
    exact tiny

private theorem pack_large (sign : Sign) {m : ℕ} {e : ℤ} (above : 0 < m)
    (large : 972 ≤ e) :
    UnpackedFloat.pack .binary64 (.finite sign m e above) =
      UnpackedFloat.pack .binary64 (.infinity sign) := by
  have bias : ((Format.binary64.exponentBias : ℕ) : ℤ) = 1023 := rfl
  have tooLarge : 2 ^ 11 ≤
      (e + Format.binary64.exponentBias + (52 : ℕ)).toNat + 1 := by
    rw [bias]
    omega
  simp only [UnpackedFloat.pack]
  rw [if_pos tooLarge]

/-- A number above the floats is rounded to infinity. -/
theorem pack_nearest_huge (sign : Sign) {v : ℚ} (huge : 2 ^ (1024 : ℤ) ≤ v) :
    UnpackedFloat.pack .binary64 (nearest .binary64 sign v) =
      UnpackedFloat.pack .binary64 (.infinity sign) := by
  have isLog := le_log huge
  have positive : 0 < v := (zpow_pos two_pos _).trans_le huge
  have isExponent : exponentAt .binary64 v = Int.log 2 v - 52 := by
    rw [exponentAt_eq]
    omega
  have scale : (0 : ℚ) < 2 ^ (Int.log 2 v - 52) := zpow_pos two_pos _
  have split : ∀ k : ℤ, (2 : ℚ) ^ (k + Int.log 2 v) =
      2 ^ (k + 52) * 2 ^ (Int.log 2 v - 52) := by
    intro k
    rw [← zpow_add₀ two_ne_zero]
    congr 1
    omega
  have lower := zpow_log_le positive
  have upper := (lt_zpow_log v).le
  rw [← zero_add (Int.log 2 v), split, ← le_div_iff₀ scale] at lower
  rw [add_comm, split, ← div_le_iff₀ scale] at upper
  unfold nearest
  rw [isExponent]
  generalize v / 2 ^ (Int.log 2 v - 52) = w at lower upper
  have whole := @halfEven_intCast ℚ
  have atLeast : 2 ^ 52 ≤ halfEven w := by
    rw [← whole (2 ^ 52)]
    exact halfEven_mono (by exact_mod_cast lower)
  have atMost : halfEven w ≤ 2 ^ 53 := by
    rw [← whole (2 ^ 53)]
    exact halfEven_mono (by exact_mod_cast upper)
  rcases atMost.eq_or_lt with isPower | less
  · have isNat : (halfEven w).toNat = 2 ^ 53 := by omega
    rw [isNat, settle_pow sign (by omega), pack_large sign _ (by omega)]
  · rw [settle_of_lt sign (by omega) (by omega) (by omega),
      pack_large sign _ (by omega)]

theorem zpow_two_le_ten {k : ℤ} (nonneg : 0 ≤ k) :
    (2 : ℚ) ^ k ≤ 10 ^ k := by
  obtain ⟨n, rfl⟩ := Int.eq_ofNat_of_zero_le nonneg
  exact pow_le_pow_left₀ (by norm_num) (by norm_num) n

private theorem zpow_ten_le_two {k : ℤ} (nonpos : k ≤ 0) :
    (10 : ℚ) ^ k ≤ 2 ^ k := by
  have inverse := zpow_two_le_ten (neg_nonneg.mpr nonpos)
  rw [zpow_neg, zpow_neg] at inverse
  exact (inv_le_inv₀ (zpow_pos two_pos k) (zpow_pos (by norm_num) k)).mp
    inverse

/-- The model of `Float.ofScientific`. -/
theorem pack_ofScientific (m : ℕ) (e : ℤ) :
    UnpackedFloat.pack .binary64 (UnpackedFloat.ofScientific .binary64 m e) =
      UnpackedFloat.pack .binary64
        (nearest .binary64 .positive (m * 10 ^ e)) := by
  unfold UnpackedFloat.ofScientific
  have range : (2 : ℤ) ^ Format.binary64.exponentBits = 2048 := rfl
  rw [range]
  split_ifs with isZero large small nonneg
  · rw [isZero, Nat.cast_zero, zero_mul, nearest_zero]
  · have some : (1 : ℚ) ≤ m := by
      exact_mod_cast Nat.one_le_iff_ne_zero.mpr isZero
    rw [pack_nearest_huge]
    calc (2 : ℚ) ^ (1024 : ℤ) ≤ 2 ^ e :=
          zpow_le_zpow_right₀ one_le_two (by omega)
      _ ≤ 10 ^ e := zpow_two_le_ten (by omega)
      _ ≤ m * 10 ^ e :=
          le_mul_of_one_le_left (zpow_pos (by norm_num) e).le some
  · have upper : (m : ℚ) ≤ 2 ^ ((m.log2 : ℤ) + 1) := by
      rw [← Nat.cast_succ, zpow_natCast]
      exact_mod_cast (Nat.lt_log2_self (n := m)).le
    have scale : (0 : ℚ) < 10 ^ e := zpow_pos (by norm_num) e
    rw [nearest_tiny _ (by positivity)]
    calc (m : ℚ) * 10 ^ e
        ≤ 2 ^ ((m.log2 : ℤ) + 1) * 2 ^ e := by
          exact mul_le_mul upper (zpow_ten_le_two (by omega)) scale.le
            (zpow_pos two_pos _).le
      _ = 2 ^ ((m.log2 : ℤ) + 1 + e) := (zpow_add₀ two_ne_zero _ _).symm
      _ < 2 ^ (-1075 : ℤ) := zpow_lt_zpow_right₀ one_lt_two (by omega)
  · obtain ⟨n, rfl⟩ := Int.eq_ofNat_of_zero_le nonneg
    have value : ((m <<< 53 * 10 ^ n : ℕ) : ℚ) * 2 ^ (-53 + 0 : ℤ) =
        m * 10 ^ (n : ℤ) := by
      rw [Nat.shiftLeft_eq]
      push_cast
      rw [zpow_natCast]
      norm_num
      ring
    have long : 2 ^ (Format.binary64.mantissaBits - 1) ≤ m <<< 53 * 10 ^ n := by
      rw [Nat.shiftLeft_eq, mul_assoc]
      have power : 0 < 10 ^ n := Nat.pow_pos (by norm_num)
      have some : 0 < m := Nat.pos_of_ne_zero isZero
      calc 2 ^ (Format.binary64.mantissaBits - 1) ≤ 1 * (2 ^ 53 * 1) := by
            norm_num [Format.mantissaBits]
        _ ≤ m * (2 ^ 53 * 10 ^ n) :=
            Nat.mul_le_mul some (Nat.mul_le_mul_left _ power)
    have rounded := round_exact .positive
      (lt_of_lt_of_le (Nat.two_pow_pos _) long)
      (@low_of_long .binary64 _ (-53 + 0) long)
    rw [value] at rounded
    exact congrArg _ rounded
  · rw [div_nearest]
    have value : (m : ℚ) * 2 ^ (0 : ℤ) /
        ((10 ^ (-e).toNat : ℕ) * 2 ^ (0 : ℤ)) = m * 10 ^ e := by
      have cast : ((-e).toNat : ℤ) = -e := Int.toNat_of_nonneg (by omega)
      rw [zpow_zero, mul_one, mul_one, Nat.cast_pow, ← zpow_natCast, cast,
        zpow_neg, div_inv_eq_mul]
      rfl
    rw [value]
    rfl

theorem ofUnpacked_congr {u v : UnpackedFloat}
    (same : UnpackedFloat.pack .binary64 u = UnpackedFloat.pack .binary64 v) :
    ofUnpacked u = ofUnpacked v := by
  unfold ofUnpacked Float.Model.pack
  congr 2
  rw [same]

/-- The digits that a whole number is short of. -/
def missing (m : ℕ) : ℕ := 52 - m.log2

theorem full_canonical {m : ℕ} (small : m < 2 ^ 53) (above : 0 < m) :
    Canonical (m * 2 ^ missing m) (-missing m) ∧
      2 ^ 52 ≤ m * 2 ^ missing m := by
  have lower : 2 ^ m.log2 ≤ m := Nat.log2_self_le above.ne'
  have upper : m < 2 ^ (m.log2 + 1) := Nat.lt_log2_self
  have short : m.log2 < 53 := (Nat.log2_lt above.ne').mpr small
  have power : 0 < 2 ^ missing m := Nat.two_pow_pos _
  have whole : m.log2 + missing m = 52 := by
    unfold missing
    omega
  have atLeast : 2 ^ 52 ≤ m * 2 ^ missing m := by
    rw [← whole, pow_add]
    exact Nat.mul_le_mul_right _ lower
  have below : m * 2 ^ missing m < 2 ^ 53 := by
    have bound := Nat.mul_lt_mul_of_pos_right upper power
    rw [← pow_add, add_right_comm, whole] at bound
    exact bound
  exact ⟨⟨below, by unfold missing; omega, .inl atLeast⟩, atLeast⟩

private theorem round_whole {m : ℕ} (small : m < 2 ^ 53) (above : 0 < m) :
    UnpackedFloat.round .binary64 .positive m 0 =
      roundWithAccuracy .binary64 .positive (m * 2 ^ missing m) (-missing m)
        .exact := by
  have short : m.log2 < 53 := (Nat.log2_lt above.ne').mpr small
  have target : Format.binary64.targetExponent (totalExponent m 0) =
      -missing m := by
    unfold Format.targetExponent totalExponent missing
    have bits : (Format.binary64.mantissaBits : ℤ) = 53 := rfl
    have least : Format.binary64.minExponent = -1074 := rfl
    rw [bits, least]
    omega
  unfold UnpackedFloat.round decreaseExponent
  simp only [target, zero_sub, neg_neg, Int.toNat_natCast, Nat.shiftLeft_eq]

/-- A whole number of at most 53 digits is a float. -/
theorem unpacked_whole {m : ℕ} (small : m < 2 ^ 53) (above : 0 < m) :
    unpacked m.toUInt64.toFloat =
      .finite .positive (m * 2 ^ missing m) (-missing m)
        (Nat.mul_pos above (Nat.two_pow_pos _)) := by
  obtain ⟨canonical, long⟩ := full_canonical small above
  have isNat : m.toUInt64.toNat = m := by
    rw [UInt64.toNat_ofNat', Nat.mod_eq_of_lt (by omega)]
  have rounded : UnpackedFloat.ofUInt64 .binary64 m.toUInt64 =
      .finite .positive (m * 2 ^ missing m) (-missing m)
        (Nat.mul_pos above (Nat.two_pow_pos _)) := by
    unfold UnpackedFloat.ofUInt64 UnpackedFloat.ofNat UnpackedFloat.ofInt
      UnpackedFloat.normalize
    rw [isNat]
    have isGreater : compare (m : ℤ) 0 = .gt := by
      rw [Int.compare_eq_gt]
      omega
    rw [isGreater]
    dsimp only
    rw [Int.toNat_natCast, round_whole small above]
    have rounded := round_exact .positive
      (Nat.mul_pos above (Nat.two_pow_pos _))
      (@low_of_long .binary64 _ (-missing m) long)
    rw [rounded]
    have scale : (0 : ℚ) < 2 ^ (-missing m : ℤ) := zpow_pos two_pos _
    have positive : (0 : ℚ) < (m * 2 ^ missing m : ℕ) := by
      exact_mod_cast Nat.mul_pos above (Nat.two_pow_pos _)
    apply nearest_of_close .positive canonical
    rw [sub_self, abs_zero]
    positivity
  change repacked (UnpackedFloat.ofUInt64 .binary64 m.toUInt64) = _
  rw [rounded]
  exact repacked_canonical canonical (by omega) _ _

/-- How the powers of five are shifted in the table. -/
def powerShifts : List ℕ :=
  [52, 50, 48, 46, 43, 41, 39, 36, 34, 32, 29, 27, 25, 22, 20, 18, 15, 13, 11,
    8, 6, 4, 1]

/-- The powers of ten in the table are exact. -/
theorem unpacked_power {e : ℕ} (small : e < 23) :
    ∃ (shift : ℕ) (above : 0 < 5 ^ e * 2 ^ shift),
      unpacked (getElem Float.exactlyRepresentablePowersOfTen e small) =
        .finite .positive (5 ^ e * 2 ^ shift) (e - shift) above := by
  refine ⟨getElem powerShifts e small, Nat.mul_pos (Nat.pow_pos (by norm_num))
    (Nat.two_pow_pos _), ?_⟩
  unfold Float.exactlyRepresentablePowersOfTen powerShifts
  interval_cases e <;>
    simp only [List.getElem_toArray, List.getElem_cons_succ,
      List.getElem_cons_zero] <;>
    refine @Eq.trans _ _ (.finite _ _ _ _) _ rfl (finite_congr ?_ ?_) <;>
    decide +kernel

theorem float_mul (x y : Float) : x * y =
    ofUnpacked (UnpackedFloat.mul .binary64 (unpacked x) (unpacked y)) := rfl

theorem float_div (x y : Float) : x / y =
    ofUnpacked (UnpackedFloat.div .binary64 (unpacked x) (unpacked y)) := rfl

theorem whole_value (m : ℕ) :
    ((m * 2 ^ missing m : ℕ) : ℚ) * 2 ^ (-missing m : ℤ) = m := by
  rw [Nat.cast_mul, Nat.cast_pow, Nat.cast_ofNat, mul_assoc, ← zpow_natCast,
    ← zpow_add₀ two_ne_zero, add_neg_cancel, zpow_zero, mul_one]

theorem power_value (e shift : ℕ) :
    ((5 ^ e * 2 ^ shift : ℕ) : ℚ) * 2 ^ (e - shift : ℤ) = 10 ^ (e : ℤ) := by
  rw [zpow_sub₀ two_ne_zero, zpow_natCast, zpow_natCast, zpow_natCast]
  push_cast
  have ten : (10 : ℚ) = 5 * 2 := by norm_num
  have scale : (2 : ℚ) ^ shift ≠ 0 := pow_ne_zero _ two_ne_zero
  rw [ten, mul_pow]
  field_simp

theorem unpacked_none : unpacked (0 : ℕ).toUInt64.toFloat = .zero .positive :=
  rfl

/-- The product of a whole number and a power of ten. -/
theorem mul_power {m e : ℕ} (small : m < 2 ^ 53) (inTable : e < 23) :
    m.toUInt64.toFloat *
        getElem Float.exactlyRepresentablePowersOfTen e inTable =
      ofUnpacked (nearest .binary64 .positive (m * 10 ^ (e : ℤ))) := by
  obtain ⟨shift, above', power⟩ := unpacked_power inTable
  rw [float_mul, power]
  rcases Nat.eq_zero_or_pos m with rfl | above
  · rw [unpacked_none, Nat.cast_zero, zero_mul, nearest_zero]
    rfl
  · have long := (full_canonical small above).2
    have value : ((m * 2 ^ missing m * (5 ^ e * 2 ^ shift) : ℕ) : ℚ) *
        2 ^ (-missing m + (e - shift) : ℤ) = m * 10 ^ (e : ℤ) := by
      rw [← power_value e shift, zpow_add₀ two_ne_zero, Nat.cast_mul,
        mul_mul_mul_comm, whole_value]
    have rounded := round_exact .positive
      (Nat.mul_pos (Nat.mul_pos above (Nat.two_pow_pos (missing m))) above')
      (@low_of_long .binary64 _ (-missing m + (e - shift))
        (long.trans (Nat.le_mul_of_pos_right _ above')))
    rw [value] at rounded
    rw [unpacked_whole small above, ← rounded]
    rfl

/-- The quotient of a whole number and a power of ten. -/
theorem div_power {m e : ℕ} (small : m < 2 ^ 53) (inTable : e < 23) :
    m.toUInt64.toFloat /
        getElem Float.exactlyRepresentablePowersOfTen e inTable =
      ofUnpacked (nearest .binary64 .positive (m * 10 ^ (-e : ℤ))) := by
  obtain ⟨shift, above', power⟩ := unpacked_power inTable
  rw [float_div, power]
  rcases Nat.eq_zero_or_pos m with rfl | above
  · rw [unpacked_none, Nat.cast_zero, zero_mul, nearest_zero]
    rfl
  · rw [unpacked_whole small above, div_nearest, whole_value, power_value,
      zpow_neg, ← div_eq_mul_inv]
    rfl

/-- **Reading a decimal gives the float nearest to it.** -/
theorem ofScientific_nearest (m : ℕ) (negative : Bool) (e : ℕ) :
    Float.ofScientific m negative e =
      ofUnpacked (nearest .binary64 .positive
        (m * 10 ^ (if negative then -e else e : ℤ))) := by
  unfold Float.ofScientific
  dsimp only
  by_cases fast : m < 2 ^ 53 ∧ e ≤ 22
  · rw [dif_pos fast]
    cases negative with
    | true => exact div_power fast.1 (Nat.lt_succ_of_le fast.2)
    | false => exact mul_power fast.1 (Nat.lt_succ_of_le fast.2)
  · rw [dif_neg fast]
    cases negative with
    | true =>
        have power : Int.negOfNat e = -(e : ℤ) := Int.negOfNat_eq
        change ofUnpacked (UnpackedFloat.ofScientific .binary64 m
          (Int.negOfNat e)) = _
        rw [power]
        exact ofUnpacked_congr (pack_ofScientific m _)
    | false => exact ofUnpacked_congr (pack_ofScientific m e)

/-- The float of a decimal. -/
def decimalFloat (m : ℕ) (k : ℤ) : Float :=
  Float.ofScientific m (k < 0) k.natAbs

section

variable {m n : ℕ} {k l : ℤ}

theorem decimalFloat_nearest (m : ℕ) (k : ℤ) :
    decimalFloat m k =
      ofUnpacked (nearest .binary64 .positive (m * 10 ^ k)) := by
  have power : (if decide (k < 0) = true then -k.natAbs else k.natAbs : ℤ) =
      k := by
    simp only [decide_eq_true_eq]
    split_ifs <;> omega
  unfold decimalFloat
  rw [ofScientific_nearest, power]

/-- Equal decimals are the same float. -/
theorem decimalFloat_congr (same : (m : ℚ) * 10 ^ k = n * 10 ^ l) :
    decimalFloat m k = decimalFloat n l := by
  rw [decimalFloat_nearest, decimalFloat_nearest, same]

/-- **A decimal close to a float is read as the float.** -/
theorem decimalFloat_close {x : Float} {mantissa : ℕ} {exponent : ℤ}
    {above : 0 < mantissa}
    (read : unpacked x = .finite .positive mantissa exponent above)
    (close : |(m : ℚ) * 10 ^ k - mantissa * 2 ^ exponent| <
      mantissa * 2 ^ exponent / 2 ^ 54) : decimalFloat m k = x := by
  rw [decimalFloat_nearest,
    nearest_of_close .positive (finite_canonical read).1 above close, ← read,
    ofUnpacked_unpacked]

theorem decimalFloat_zero (k : ℤ) :
    unpacked (decimalFloat 0 k) = .zero .positive := by
  rw [decimalFloat_nearest, Nat.cast_zero, zero_mul, nearest_zero]
  rfl

end

end Arithmetic
