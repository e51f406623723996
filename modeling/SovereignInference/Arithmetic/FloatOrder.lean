import Mathlib

/-!
# Signs and the order of floating-point numbers

Arithmetic on floats that are not negative never makes a NaN, as long as no
zero or infinity meets its opposite.  Floats other than NaNs are ordered
linearly: sign first, then exponent and mantissa.
-/

namespace Arithmetic

open Float.Model
open Float.Model.UnpackedFloat (Sign Accuracy packComponents unpackSign
  unpackMantissa unpackExponent roundWithAccuracy)

/-- The sign of a float that is a number. -/
def signOf : UnpackedFloat → Option Sign
  | .notANumber => none
  | .infinity sign => some sign
  | .zero sign => some sign
  | .finite sign _ _ _ => some sign

/-- The result of an operation, as it reads back from its bits. -/
def repacked (u : UnpackedFloat) : UnpackedFloat :=
  UnpackedFloat.unpack .binary64 (UnpackedFloat.pack .binary64 u)

theorem ofBitVec_toBitVec (sign : Sign) :
    Sign.ofBitVec sign.toBitVec = sign := by
  cases sign <;> rfl

theorem unpackSign_packComponents {spec : Format} (sign : Sign)
    (exponent : BitVec spec.exponentBits)
    (mantissa : BitVec spec.mantissaBitsWithoutImplicit) :
    unpackSign (packComponents spec sign exponent mantissa) =
      sign.toBitVec := by
  apply BitVec.eq_of_getLsbD_eq
  intro i small
  obtain rfl : i = 0 := by omega
  simp [unpackSign, packComponents, BitVec.getLsbD_append,
    BitVec.getElem_append]

theorem signOf_unpack {spec : Format} (sign : Sign)
    (exponent : BitVec spec.exponentBits)
    (mantissa : BitVec spec.mantissaBitsWithoutImplicit)
    (number : exponent = -1#_ → mantissa = 0#_) :
    signOf (UnpackedFloat.unpack spec
      (packComponents spec sign exponent mantissa)) = some sign := by
  unfold UnpackedFloat.unpack
  simp only [UnpackedFloat.unpackMantissa_packComponents,
    UnpackedFloat.unpackExponent_packComponents, unpackSign_packComponents,
    ofBitVec_toBitVec]
  by_cases infinite : exponent = -1#_
  · rw [if_pos infinite, if_pos (number infinite)]
    rfl
  · rw [if_neg infinite]
    split
    · split <;> rfl
    · rfl

/-- An exponent that is not all ones. -/
theorem ofNat_ne_neg_one {w biased : Nat} (small : biased + 1 < 2 ^ w) :
    BitVec.ofNat w biased ≠ -1#w := by
  intro same
  have value := congrArg BitVec.toNat same
  rw [BitVec.neg_one_eq_allOnes, BitVec.toNat_ofNat, BitVec.toNat_allOnes,
    Nat.mod_eq_of_lt (by omega)] at value
  omega

theorem signOf_repacked (u : UnpackedFloat) :
    signOf (repacked u) = signOf u := by
  unfold repacked
  cases u with
  | notANumber => rfl
  | infinity sign => exact signOf_unpack sign _ _ fun _ => rfl
  | zero sign => exact signOf_unpack sign _ _ fun _ => rfl
  | finite sign mantissa exponent positive =>
      simp only [UnpackedFloat.pack]
      split
      · exact signOf_unpack sign _ _ fun _ => rfl
      · rename_i large
        split
        · refine signOf_unpack sign _ _ fun infinite => ?_
          exact absurd infinite (ofNat_ne_neg_one (Nat.lt_of_not_le large))
        · refine signOf_unpack sign _ _ fun infinite => ?_
          exact absurd infinite (by decide)

theorem repacked_zero (sign : Sign) : repacked (.zero sign) = .zero sign := by
  cases sign <;> rfl

theorem signOf_roundWithAccuracy (spec : Format) (sign : Sign)
    (mantissa : Nat) (exponent : Int) (accuracy : Accuracy) :
    signOf (roundWithAccuracy spec sign mantissa exponent accuracy) =
      some sign := by
  simp only [roundWithAccuracy]
  split <;> rfl

theorem signOf_normalize (spec : Format) (mantissa exponent : Int) :
    ∃ sign, signOf (UnpackedFloat.normalize spec mantissa exponent
      .positive) = some sign := by
  unfold UnpackedFloat.normalize
  split
  · exact ⟨_, signOf_roundWithAccuracy spec _ _ _ _⟩
  · exact ⟨_, rfl⟩
  · exact ⟨_, signOf_roundWithAccuracy spec _ _ _ _⟩

theorem signOf_normalize_nonneg (spec : Format) {mantissa : Int}
    (exponent : Int) (nonnegative : 0 ≤ mantissa) :
    signOf (UnpackedFloat.normalize spec mantissa exponent .positive) =
      some .positive := by
  unfold UnpackedFloat.normalize
  split
  · rename_i less
    rw [Int.compare_eq_lt] at less
    omega
  · rfl
  · exact signOf_roundWithAccuracy spec _ _ _ _

theorem aligned_nonneg (first second : Nat) :
    (0 : Int) ≤ Sign.positive.apply first + Sign.positive.apply second :=
  Int.add_nonneg (Int.natCast_nonneg first) (Int.natCast_nonneg second)

/-- A number with a positive sign. -/
inductive Plus : UnpackedFloat → Prop where
  | infinity : Plus (.infinity .positive)
  | zero : Plus (.zero .positive)
  | finite (mantissa : Nat) (exponent : Int) (above : 0 < mantissa) :
      Plus (.finite .positive mantissa exponent above)

theorem plus_iff (u : UnpackedFloat) :
    Plus u ↔ signOf u = some .positive := by
  constructor
  · intro plus
    cases plus <;> rfl
  · intro positive
    cases u with
    | notANumber => cases positive
    | infinity sign =>
        cases positive
        exact .infinity
    | zero sign =>
        cases positive
        exact .zero
    | finite sign mantissa exponent above =>
        cases positive
        exact .finite mantissa exponent above

section

variable {spec : Format} {u v : UnpackedFloat}

theorem Plus.add (first : Plus u) (second : Plus v) :
    Plus (UnpackedFloat.add spec u v) := by
  cases first with
  | infinity => cases second <;> exact .infinity
  | zero =>
      cases second with
      | infinity => exact .infinity
      | zero => exact .zero
      | finite mantissa exponent above => exact .finite mantissa exponent above
  | finite mantissa exponent above =>
      cases second with
      | infinity => exact .infinity
      | zero => exact .finite mantissa exponent above
      | finite _ _ _ =>
          rw [plus_iff]
          exact signOf_normalize_nonneg spec _ (aligned_nonneg _ _)

theorem Plus.zero_add (sign : Sign) (plus : Plus v) :
    Plus (UnpackedFloat.add spec (.zero sign) v) := by
  cases plus with
  | infinity => exact .infinity
  | zero => cases sign <;> exact .zero
  | finite mantissa exponent above => exact .finite mantissa exponent above

theorem Plus.add_zero (sign : Sign) (plus : Plus u) :
    Plus (UnpackedFloat.add spec u (.zero sign)) := by
  cases plus with
  | infinity => exact .infinity
  | zero => cases sign <;> exact .zero
  | finite mantissa exponent above => exact .finite mantissa exponent above

theorem Plus.div {mantissa : Nat} {exponent : Int} (above : 0 < mantissa)
    (plus : Plus v) :
    Plus (UnpackedFloat.div spec
      (.finite .positive mantissa exponent above) v) := by
  cases plus with
  | infinity => exact .zero
  | zero => exact .infinity
  | finite _ _ _ =>
      rw [plus_iff]
      exact signOf_roundWithAccuracy spec _ _ _ _

theorem Plus.div_finite {mantissa : Nat} {exponent : Int}
    (above : 0 < mantissa) (plus : Plus u) :
    Plus (UnpackedFloat.div spec u
      (.finite .positive mantissa exponent above)) := by
  cases plus with
  | infinity => exact .infinity
  | zero => exact .zero
  | finite _ _ _ =>
      rw [plus_iff]
      exact signOf_roundWithAccuracy spec _ _ _ _

theorem Plus.mul {mantissa : Nat} {exponent : Int} (above : 0 < mantissa)
    (plus : Plus v) :
    Plus (UnpackedFloat.mul spec
      (.finite .positive mantissa exponent above) v) := by
  cases plus with
  | infinity => exact .infinity
  | zero => exact .zero
  | finite _ _ _ =>
      rw [plus_iff]
      exact signOf_roundWithAccuracy spec _ _ _ _

theorem Plus.mul_finite {mantissa : Nat} {exponent : Int}
    (above : 0 < mantissa) (plus : Plus u) :
    Plus (UnpackedFloat.mul spec u
      (.finite .positive mantissa exponent above)) := by
  cases plus with
  | infinity => exact .infinity
  | zero => exact .zero
  | finite _ _ _ =>
      rw [plus_iff]
      exact signOf_roundWithAccuracy spec _ _ _ _

theorem signOf_add (number : ∃ sign, signOf u = some sign)
    (isFinite : v.isFinite = true) :
    ∃ sign, signOf (UnpackedFloat.add spec u v) = some sign := by
  cases u with
  | notANumber => exact number
  | infinity sign =>
      cases v with
      | notANumber => cases isFinite
      | infinity _ => cases isFinite
      | zero _ => exact ⟨sign, rfl⟩
      | finite _ _ _ _ => exact ⟨sign, rfl⟩
  | zero sign =>
      cases v with
      | notANumber => cases isFinite
      | infinity _ => cases isFinite
      | zero other => cases sign <;> cases other <;> exact ⟨_, rfl⟩
      | finite other _ _ _ => exact ⟨other, rfl⟩
  | finite sign _ _ _ =>
      cases v with
      | notANumber => cases isFinite
      | infinity _ => cases isFinite
      | zero _ => exact ⟨sign, rfl⟩
      | finite _ _ _ _ => exact signOf_normalize spec _ _

theorem signOf_div {mantissa : Nat} {exponent : Int} (above : 0 < mantissa)
    (number : ∃ sign, signOf u = some sign) :
    ∃ sign, signOf (UnpackedFloat.div spec u
      (.finite .positive mantissa exponent above)) = some sign := by
  cases u with
  | notANumber => exact number
  | infinity sign => exact ⟨_, rfl⟩
  | zero sign => exact ⟨_, rfl⟩
  | finite sign _ _ _ => exact ⟨_, signOf_roundWithAccuracy spec _ _ _ _⟩

end

def unpacked (x : Float) : UnpackedFloat := x.toModel.unpack

/-- A float other than a NaN. -/
def IsNumber (x : Float) : Prop := ∃ sign, signOf (unpacked x) = some sign

/-- A float with a positive sign. -/
def IsPlus (x : Float) : Prop := Plus (unpacked x)

/-- A float that is not below zero, which a negative zero is not either. -/
def IsNonneg (x : Float) : Prop :=
  IsPlus x ∨ unpacked x = .zero .negative

/-- A finite float above zero. -/
def IsPositive (x : Float) : Prop :=
  ∃ mantissa exponent above,
    unpacked x = .finite .positive mantissa exponent above

theorem Plus.repacked {u : UnpackedFloat} (plus : Plus u) :
    Plus (repacked u) := by
  rw [plus_iff, signOf_repacked]
  exact (plus_iff u).mp plus

section

variable {x y : Float}

theorem IsPlus.isNumber (plus : IsPlus x) : IsNumber x :=
  ⟨_, (plus_iff _).mp plus⟩

theorem IsPlus.nonneg (plus : IsPlus x) : IsNonneg x := Or.inl plus

theorem IsPositive.isPlus (positive : IsPositive x) : IsPlus x := by
  obtain ⟨mantissa, exponent, above, isFinite⟩ := positive
  unfold IsPlus
  rw [isFinite]
  exact .finite mantissa exponent above

theorem isNumber_of_isFinite (isFinite : x.isFinite = true) :
    IsNumber x := by
  unfold IsNumber
  change (unpacked x).isFinite = true at isFinite
  cases read : unpacked x with
  | notANumber =>
      rw [read] at isFinite
      cases isFinite
  | infinity sign => exact ⟨sign, rfl⟩
  | zero sign => exact ⟨sign, rfl⟩
  | finite sign mantissa exponent above => exact ⟨sign, rfl⟩

theorem lt_iff_unpacked :
    x < y ↔ (unpacked x).lt (unpacked y) = true := by
  change decide (x.toModel < y.toModel) = true ↔ _
  exact decide_eq_true_iff

theorem unpacked_zero : unpacked 0 = .zero .positive := rfl

theorem nonneg_zero : IsNonneg 0 := Or.inl .zero

theorem nonneg_of_not_lt (number : IsNumber x) (notBelow : ¬ x < 0) :
    IsNonneg x := by
  rw [lt_iff_unpacked, unpacked_zero] at notBelow
  obtain ⟨sign, isSigned⟩ := number
  unfold IsNonneg IsPlus
  generalize unpacked x = u at isSigned notBelow
  cases u with
  | notANumber => cases isSigned
  | infinity sign =>
      cases sign with
      | negative => exact absurd rfl notBelow
      | positive => exact Or.inl .infinity
  | zero sign =>
      cases sign with
      | negative => exact Or.inr rfl
      | positive => exact Or.inl .zero
  | finite sign mantissa exponent above =>
      cases sign with
      | negative => exact absurd rfl notBelow
      | positive => exact Or.inl (.finite mantissa exponent above)

theorem plus_of_lt (nonneg : IsNonneg x) (above : 0 < x) : IsPlus x := by
  rcases nonneg with plus | isZero
  · exact plus
  · rw [lt_iff_unpacked, unpacked_zero, isZero] at above
    cases above

theorem IsNonneg.isNumber (nonneg : IsNonneg x) : IsNumber x := by
  rcases nonneg with plus | isZero
  · exact plus.isNumber
  · exact ⟨_, by rw [isZero]; rfl⟩

theorem unpacked_add (x y : Float) : unpacked (x + y) =
    repacked (UnpackedFloat.add .binary64 (unpacked x) (unpacked y)) := rfl

theorem unpacked_mul (x y : Float) : unpacked (x * y) =
    repacked (UnpackedFloat.mul .binary64 (unpacked x) (unpacked y)) := rfl

theorem unpacked_div (x y : Float) : unpacked (x / y) =
    repacked (UnpackedFloat.div .binary64 (unpacked x) (unpacked y)) := rfl

theorem add_plus (nonneg : IsNonneg x) (plus : IsPlus y) :
    IsPlus (x + y) := by
  unfold IsPlus
  rw [unpacked_add]
  rcases nonneg with first | isZero
  · exact (first.add plus).repacked
  · rw [isZero]
    exact (Plus.zero_add _ plus).repacked

theorem plus_add (plus : IsPlus x) (nonneg : IsNonneg y) :
    IsPlus (x + y) := by
  unfold IsPlus
  rw [unpacked_add]
  rcases nonneg with second | isZero
  · exact (plus.add second).repacked
  · rw [isZero]
    exact (Plus.add_zero _ plus).repacked

theorem add_nonneg (first : IsNonneg x) (second : IsNonneg y) :
    IsNonneg (x + y) := by
  rcases first with plus | firstZero
  · exact Or.inl (plus_add plus second)
  · rcases second with plus | secondZero
    · exact Or.inl (add_plus (Or.inr firstZero) plus)
    · right
      rw [unpacked_add, firstZero, secondZero]
      exact repacked_zero .negative

theorem div_plus (positive : IsPositive x) (plus : IsPlus y) :
    IsPlus (x / y) := by
  obtain ⟨mantissa, exponent, above, isFinite⟩ := positive
  unfold IsPlus
  rw [unpacked_div, isFinite]
  exact (Plus.div above plus).repacked

theorem nonneg_div (nonneg : IsNonneg x) (positive : IsPositive y) :
    IsNonneg (x / y) := by
  obtain ⟨mantissa, exponent, above, isFinite⟩ := positive
  rcases nonneg with plus | isZero
  · left
    unfold IsPlus
    rw [unpacked_div, isFinite]
    exact (Plus.div_finite above plus).repacked
  · right
    rw [unpacked_div, isFinite, isZero]
    exact repacked_zero .negative

theorem mul_plus (positive : IsPositive x) (plus : IsPlus y) :
    IsPlus (x * y) := by
  obtain ⟨mantissa, exponent, above, isFinite⟩ := positive
  unfold IsPlus
  rw [unpacked_mul, isFinite]
  exact (Plus.mul above plus).repacked

theorem plus_mul (plus : IsPlus x) (positive : IsPositive y) :
    IsPlus (x * y) := by
  obtain ⟨mantissa, exponent, above, isFinite⟩ := positive
  unfold IsPlus
  rw [unpacked_mul, isFinite]
  exact (Plus.mul_finite above plus).repacked

theorem add_isNumber (number : IsNumber x) (isFinite : y.isFinite = true) :
    IsNumber (x + y) := by
  unfold IsNumber
  rw [unpacked_add, signOf_repacked]
  exact signOf_add number isFinite

theorem div_isNumber (number : IsNumber x) (positive : IsPositive y) :
    IsNumber (x / y) := by
  obtain ⟨mantissa, exponent, above, isFinite⟩ := positive
  unfold IsNumber
  rw [unpacked_div, isFinite, signOf_repacked]
  exact signOf_div above number

/-- The float of a natural number. -/
theorem ofNat_plus (n : Nat) : IsPlus (Float.ofNat n) := by
  change IsPlus (Float.ofScientific n false 0)
  unfold Float.ofScientific
  dsimp only
  split
  · have one : IsPositive (Float.ofBits 0x3FF0000000000000) :=
      ⟨_, _, _, rfl⟩
    refine plus_mul ?_ one
    have whole : Plus (UnpackedFloat.ofInt .binary64
        (n.toUInt64.toNat : Int)) := by
      rw [plus_iff]
      exact signOf_normalize_nonneg _ _ (Int.natCast_nonneg _)
    exact whole.repacked
  · have scaled : Plus (UnpackedFloat.ofScientific .binary64 n 0) := by
      unfold UnpackedFloat.ofScientific
      split_ifs
      · exact .zero
      · exact .infinity
      · exact .zero
      · exact Plus.mul _ (.finite _ _ _)
      · omega
    exact scaled.repacked

end

/-- A position in the order: the sign and the kind, the exponent, and the
mantissa. -/
abbrev Position := ℤ ×ₗ ℤ ×ₗ ℤ

def position : UnpackedFloat → Position
  | .notANumber => toLex (0, toLex (0, 0))
  | .infinity .negative => toLex (-2, toLex (0, 0))
  | .infinity .positive => toLex (2, toLex (0, 0))
  | .zero _ => toLex (0, toLex (0, 0))
  | .finite .negative mantissa exponent _ =>
      toLex (-1, toLex (-exponent, -mantissa))
  | .finite .positive mantissa exponent _ =>
      toLex (1, toLex (exponent, mantissa))

theorem then_eq_lt (e e' : Int) (m m' : Nat) :
    (compare e e').then (compare m m') = .lt ↔
      e < e' ∨ e = e' ∧ m < m' := by
  rw [Ordering.then_eq_lt, Int.compare_eq_lt, Int.compare_eq_eq,
    Nat.compare_eq_lt]

theorem then_eq_gt (e e' : Int) (m m' : Nat) :
    (compare e e').then (compare m m') = .gt ↔
      e' < e ∨ e = e' ∧ m' < m := by
  rw [Ordering.then_eq_gt, Int.compare_eq_gt, Int.compare_eq_eq,
    Nat.compare_eq_gt]

private theorem signs_lt : compare Sign.negative Sign.positive = .lt := rfl

private theorem lt_iff_position {u v : UnpackedFloat}
    (first : ∃ sign, signOf u = some sign)
    (second : ∃ sign, signOf v = some sign) :
    u.lt v = true ↔ position u < position v := by
  unfold UnpackedFloat.lt
  cases v with
  | notANumber => simp [signOf] at second
  | infinity other =>
      cases u with
      | notANumber => simp [signOf] at first
      | infinity sign =>
          cases sign <;> cases other <;>
            simp [UnpackedFloat.compare, position, Prod.Lex.toLex_lt_toLex,
              signs_lt]
      | zero sign =>
          cases other <;>
            simp [UnpackedFloat.compare, position, Prod.Lex.toLex_lt_toLex]
      | finite sign _ _ _ =>
          cases sign <;> cases other <;>
            simp [UnpackedFloat.compare, position, Prod.Lex.toLex_lt_toLex]
  | zero other =>
      cases u with
      | notANumber => simp [signOf] at first
      | zero sign => simp [UnpackedFloat.compare, position]
      | infinity sign =>
          cases sign <;>
            simp [UnpackedFloat.compare, position, Prod.Lex.toLex_lt_toLex]
      | finite sign _ _ _ =>
          cases sign <;>
            simp [UnpackedFloat.compare, position, Prod.Lex.toLex_lt_toLex]
  | finite other _ _ _ =>
      cases u with
      | notANumber => simp [signOf] at first
      | infinity sign =>
          cases sign <;> cases other <;>
            simp [UnpackedFloat.compare, position, Prod.Lex.toLex_lt_toLex]
      | zero sign =>
          cases other <;>
            simp [UnpackedFloat.compare, position, Prod.Lex.toLex_lt_toLex]
      | finite sign _ _ _ =>
          cases sign <;> cases other <;>
            simp [UnpackedFloat.compare, position, Prod.Lex.toLex_lt_toLex,
              then_eq_lt, then_eq_gt]

/-- **Floats other than NaNs are in a linear order.** -/
theorem lt_iff_place {x y : Float} (first : IsNumber x)
    (second : IsNumber y) :
    x < y ↔ position (unpacked x) < position (unpacked y) :=
  lt_iff_unpacked.trans (lt_iff_position first second)

end Arithmetic
