import SovereignInference.Arithmetic.FloatNegation
import Mathlib

/-!
# The bits of floats

A float is determined by the number that its bits stand for, and the bits are
the sign, the exponent and the mantissa.
-/

namespace Arithmetic

open Float.Model
open Float.Model.UnpackedFloat (Sign packComponents unpackSign unpackExponent
  unpackMantissa)

private theorem toBitVec_ofBitVec (b : BitVec 1) :
    (Sign.ofBitVec b).toBitVec = b := by
  have both : ∀ b : BitVec 1, (Sign.ofBitVec b).toBitVec = b := by decide
  exact both b

theorem packComponents_unpack (b : BitVec Format.binary64.numBits) :
    packComponents .binary64 (Sign.ofBitVec (unpackSign b)) (unpackExponent b)
      (unpackMantissa b) = b := by
  apply BitVec.eq_of_getLsbD_eq
  intro i small
  change i < 64 at small
  unfold packComponents
  rw [toBitVec_ofBitVec]
  simp only [BitVec.getLsbD_append, unpackSign, unpackExponent,
    unpackMantissa, BitVec.getLsbD_cast, BitVec.getLsbD_extractLsb]
  by_cases inMantissa : i < 52
  · simp [inMantissa]
  · by_cases inExponent : i - 52 < 11
    · simp [inMantissa, inExponent]
      grind
    · simp [inMantissa, inExponent]
      grind

theorem signOf_unpack_eq {b : BitVec Format.binary64.numBits}
    {u : UnpackedFloat} (read : UnpackedFloat.unpack .binary64 b = u)
    (number : u ≠ .notANumber) :
    signOf u = some (Sign.ofBitVec (unpackSign b)) := by
  subst read
  unfold UnpackedFloat.unpack at number ⊢
  dsimp only at number ⊢
  split_ifs at number ⊢ <;> first | rfl | exact absurd rfl number

theorem signed_self {u : UnpackedFloat} {sign : Sign}
    (isSigned : signOf u = some sign) : signed sign u = u := by
  cases u with
  | notANumber => cases isSigned
  | infinity _ =>
      cases isSigned
      rfl
  | zero _ =>
      cases isSigned
      rfl
  | finite _ _ _ _ =>
      cases isSigned
      rfl

/-- Valid bits are packed again from what they stand for. -/
theorem pack_unpack {b : BitVec Format.binary64.numBits}
    (valid : Format.binary64.Valid b) :
    UnpackedFloat.pack .binary64 (UnpackedFloat.unpack .binary64 b) = b := by
  by_cases number : UnpackedFloat.unpack .binary64 b = .notANumber
  · rw [number]
    unfold UnpackedFloat.unpack at number
    dsimp only at number
    split_ifs at number with infinite isZero
    exact (valid.eq_packedNaN infinite isZero).symm
  · have isSigned := signOf_unpack_eq rfl number
    have packed := pack_signed b (Sign.ofBitVec (unpackSign b)) number
    rw [signed_self isSigned, packComponents_unpack] at packed
    exact packed

/-- The float of a number. -/
def ofUnpacked (u : UnpackedFloat) : Float := .ofModel (.pack u)

theorem ofUnpacked_unpacked (x : Float) : ofUnpacked (unpacked x) = x := by
  have same := pack_unpack x.toModel.valid
  obtain ⟨⟨⟨bits⟩, valid⟩⟩ := x
  unfold ofUnpacked unpacked Float.Model.pack Float.Model.unpack
  congr 2
  exact congrArg UInt64.ofBitVec same

theorem eq_of_unpacked {x y : Float} (same : unpacked x = unpacked y) :
    x = y := by
  rw [← ofUnpacked_unpacked x, same, ofUnpacked_unpacked]

theorem toNat_unpackExponent (b : BitVec Format.binary64.numBits) :
    (unpackExponent b).toNat = b.toNat / 2 ^ 52 % 2 ^ 11 := by
  simp [unpackExponent, BitVec.extractLsb_toNat, Nat.shiftRight_eq_div_pow]

theorem toNat_unpackMantissa (b : BitVec Format.binary64.numBits) :
    (unpackMantissa b).toNat = b.toNat % 2 ^ 52 := by
  simp [unpackMantissa, BitVec.extractLsb_toNat]

private theorem toNat_unpackSign (b : BitVec Format.binary64.numBits) :
    (unpackSign b).toNat = b.toNat / 2 ^ 63 := by
  have small : b.toNat < 2 ^ 64 := b.isLt
  simp [unpackSign, BitVec.extractLsb_toNat, Nat.shiftRight_eq_div_pow]
  omega

private theorem ofBitVec_eq_negative {b : BitVec Format.binary64.numBits} :
    Sign.ofBitVec (unpackSign b) = .negative ↔ 2 ^ 63 ≤ b.toNat := by
  have small : b.toNat < 2 ^ 64 := b.isLt
  have value := toNat_unpackSign b
  unfold Sign.ofBitVec
  split_ifs with isZero
  · rw [isZero, BitVec.toNat_ofNat] at value
    refine iff_of_false nofun ?_
    omega
  · refine iff_of_true rfl ?_
    by_contra below
    apply isZero
    apply BitVec.eq_of_toNat_eq
    rw [value, BitVec.toNat_ofNat]
    omega

/-- The first bit is the sign of a number. -/
theorem signOf_eq_negative {x : Float} (number : IsNumber x) :
    signOf (unpacked x) = some .negative ↔ 2 ^ 63 ≤ x.toBits.toNat := by
  obtain ⟨sign, isSigned⟩ := number
  have isNumber : unpacked x ≠ .notANumber := by
    intro none
    rw [none] at isSigned
    cases isSigned
  have read := signOf_unpack_eq (Eq.refl (unpacked x)) isNumber
  rw [read, Option.some.injEq]
  exact ofBitVec_eq_negative

/-- The float with a positive sign. -/
def unsigned (x : Float) : Float := ofUnpacked (signed .positive (unpacked x))

theorem unpacked_unsigned (x : Float) :
    unpacked (unsigned x) = signed .positive (unpacked x) :=
  repacked_signed x.toModel.toBits.toBitVec .positive

private theorem toNat_packComponents (exponent : BitVec 11)
    (fraction : BitVec 52) :
    (packComponents .binary64 .positive exponent fraction).toNat =
      exponent.toNat * 2 ^ 52 + fraction.toNat := by
  have small : exponent.toNat < 2 ^ 11 := exponent.isLt
  unfold packComponents
  rw [BitVec.toNat_append, BitVec.toNat_append,
    ← Nat.shiftLeft_add_eq_or_of_lt fraction.isLt,
    ← Nat.shiftLeft_add_eq_or_of_lt exponent.isLt]
  simp [Sign.toBitVec, Nat.shiftLeft_eq]

theorem toBits_unsigned {x : Float} (number : IsNumber x) :
    (unsigned x).toBits.toNat = x.toBits.toNat % 2 ^ 63 := by
  have isNumber : UnpackedFloat.unpack .binary64 x.toModel.toBits.toBitVec ≠
      .notANumber := by
    obtain ⟨sign, isSigned⟩ := number
    intro none
    unfold unpacked Float.Model.unpack at isSigned
    rw [none] at isSigned
    cases isSigned
  have packed := pack_signed x.toModel.toBits.toBitVec .positive isNumber
  have bits : (unsigned x).toBits.toNat = (UnpackedFloat.pack .binary64
      (signed .positive (UnpackedFloat.unpack .binary64
        x.toModel.toBits.toBitVec))).toNat := rfl
  have same : x.toBits.toNat = x.toModel.toBits.toBitVec.toNat := rfl
  rw [bits, packed, toNat_packComponents, toNat_unpackExponent,
    toNat_unpackMantissa, same]
  omega

private theorem eq_of_toBits {x y : Float}
    (same : x.toBits.toNat = y.toBits.toNat) :
    x = y := by
  obtain ⟨⟨bits, _⟩⟩ := x
  obtain ⟨⟨bits', _⟩⟩ := y
  obtain rfl : bits = bits' := UInt64.toNat_inj.mp same
  rfl

theorem eq_unsigned_iff {x y : Float} (number : IsNumber x) :
    y.toBits.toNat = x.toBits.toNat % 2 ^ 63 ↔ y = unsigned x := by
  rw [← toBits_unsigned number]
  constructor
  · exact eq_of_toBits
  · rintro rfl
    rfl

/-- The sign and the rest make the float. -/
theorem eq_signed_unsigned {x : Float} (number : IsNumber x) :
    x = if 2 ^ 63 ≤ x.toBits.toNat then -unsigned x else unsigned x := by
  have negative := signOf_eq_negative number
  obtain ⟨sign, isSigned⟩ := number
  have self := signed_self isSigned
  apply eq_of_unpacked
  rw [isSigned] at negative
  cases sign with
  | negative =>
      rw [if_pos (negative.mp rfl), unpacked_neg, unpacked_unsigned,
        neg_eq_signed]
      rw [← self]
      cases unpacked x <;> rfl
  | positive =>
      have notBelow : ¬ 2 ^ 63 ≤ x.toBits.toNat :=
        fun below => nomatch negative.mpr below
      rw [if_neg notBelow, unpacked_unsigned, self]

end Arithmetic
