import SovereignInference.Arithmetic.FloatCompare
import Mathlib

/-!
# Negated floats

A float of another sign packs exactly, so negation reverses the order.
-/

namespace Arithmetic

open Float.Model
open Float.Model.UnpackedFloat (Sign packComponents unpackExponent
  unpackMantissa)

/-- The same number with another sign. -/
def signed (sign : Sign) : UnpackedFloat → UnpackedFloat
  | .notANumber => .notANumber
  | .infinity _ => .infinity sign
  | .zero _ => .zero sign
  | .finite _ mantissa exponent above => .finite sign mantissa exponent above

theorem unpack_packComponents (b : BitVec Format.binary64.numBits)
    (sign : Sign) :
    UnpackedFloat.unpack .binary64 (packComponents .binary64 sign
        (unpackExponent b) (unpackMantissa b)) =
      signed sign (UnpackedFloat.unpack .binary64 b) := by
  unfold UnpackedFloat.unpack
  simp only [UnpackedFloat.unpackMantissa_packComponents,
    UnpackedFloat.unpackExponent_packComponents, unpackSign_packComponents,
    ofBitVec_toBitVec]
  split_ifs
  · rfl
  · rfl
  · rfl
  · rfl
  · rfl

theorem log2_normal {fraction : Nat} (small : fraction < 2 ^ 52) :
    (2 ^ 52 + fraction).log2 = 52 := by
  rw [Nat.log2_eq_iff (by omega)]
  omega

theorem log2_subnormal {fraction : Nat} (above : fraction ≠ 0)
    (small : fraction < 2 ^ 52) : fraction.log2 + 1 ≠ 53 := by
  have below := (Nat.log2_lt above).mpr small
  omega

theorem toNat_full (fraction : BitVec 52) :
    (1#1 ++ fraction).toNat = 2 ^ 52 + fraction.toNat := by
  rw [BitVec.toNat_append, ← Nat.shiftLeft_add_eq_or_of_lt fraction.isLt]
  rfl

theorem pack_signed (b : BitVec Format.binary64.numBits) (sign : Sign)
    (number : UnpackedFloat.unpack .binary64 b ≠ .notANumber) :
    UnpackedFloat.pack .binary64
        (signed sign (UnpackedFloat.unpack .binary64 b)) =
      packComponents .binary64 sign (unpackExponent b)
        (unpackMantissa b) := by
  have small : (unpackMantissa b).toNat < 2 ^ 52 := (unpackMantissa b).isLt
  have narrow : (unpackExponent b).toNat < 2 ^ 11 := (unpackExponent b).isLt
  unfold UnpackedFloat.unpack at number ⊢
  dsimp only at number ⊢
  split_ifs at number ⊢ with infinite none zero none'
  · rw [infinite, none]
    rfl
  · exact absurd rfl number
  · rw [zero, none']
    rfl
  · have notZero : (unpackMantissa b).toNat ≠ 0 := by
      intro isZero
      exact none' (BitVec.eq_of_toNat_eq isZero)
    have shorter : (unpackMantissa b).toNat.log2 + 1 ≠
        Format.binary64.mantissaBits := log2_subnormal notZero small
    simp only [signed, UnpackedFloat.pack]
    rw [if_neg ?_, if_neg shorter]
    · rw [zero, BitVec.ofNat_toNat, BitVec.setWidth_eq]
    · rw [zero]
      decide
  · have below : (unpackExponent b).toNat ≠ 2 ^ 11 - 1 := by
      intro all
      exact infinite (BitVec.eq_of_toNat_eq all)
    have whole : (1#1 ++ unpackMantissa b).toNat =
        2 ^ 52 + (unpackMantissa b).toNat := toNat_full _
    have full : (1#1 ++ unpackMantissa b).toNat.log2 + 1 =
        Format.binary64.mantissaBits := by
      rw [whole, log2_normal small]
      rfl
    have biased : ((unpackExponent b).toNat -
        (Format.binary64.exponentBias + (52 : Nat) : Int) +
          Format.binary64.exponentBias + (52 : Nat)).toNat =
        (unpackExponent b).toNat := by
      omega
    simp only [signed, UnpackedFloat.pack]
    rw [biased, if_neg ?_, if_pos full]
    · rw [whole, BitVec.ofNat_toNat, BitVec.setWidth_eq]
      congr 1
      apply BitVec.eq_of_toNat_eq
      rw [BitVec.toNat_ofNat]
      omega
    · omega

theorem repacked_signed (b : BitVec Format.binary64.numBits) (sign : Sign) :
    repacked (signed sign (UnpackedFloat.unpack .binary64 b)) =
      signed sign (UnpackedFloat.unpack .binary64 b) := by
  by_cases number : UnpackedFloat.unpack .binary64 b = .notANumber
  · rw [number]
    change UnpackedFloat.unpack .binary64
      (UnpackedFloat.packedNaN .binary64) = .notANumber
    unfold UnpackedFloat.packedNaN UnpackedFloat.unpack
    rw [UnpackedFloat.unpackExponent_packComponents, if_pos rfl,
      UnpackedFloat.unpackMantissa_packComponents, if_neg (by decide)]
  · unfold repacked
    rw [pack_signed b sign number, unpack_packComponents]

/-- The sign of the negated number. -/
def oppositeSign (u : UnpackedFloat) : Sign :=
  match signOf u with
  | some sign => -sign
  | none => .positive

theorem neg_eq_signed (u : UnpackedFloat) :
    u.neg = signed (oppositeSign u) u := by
  cases u <;> rfl

theorem unpacked_neg (x : Float) : unpacked (-x) = (unpacked x).neg := by
  change repacked (unpacked x).neg = _
  rw [neg_eq_signed]
  exact repacked_signed x.toModel.toBits.toBitVec _

theorem compare_neg (u v : UnpackedFloat) :
    u.neg.compare v.neg = v.compare u := by
  cases u with
  | notANumber => cases v <;> rfl
  | infinity sign =>
      cases v with
      | notANumber => cases sign <;> rfl
      | infinity other => cases sign <;> cases other <;> rfl
      | zero other => cases sign <;> rfl
      | finite other _ _ _ => cases sign <;> cases other <;> rfl
  | zero sign =>
      cases v with
      | notANumber => rfl
      | infinity other => cases other <;> rfl
      | zero other => rfl
      | finite other _ _ _ => cases other <;> rfl
  | finite sign m e _ =>
      cases v with
      | notANumber => cases sign <;> rfl
      | infinity other => cases sign <;> cases other <;> rfl
      | zero other => cases sign <;> rfl
      | finite other _ _ _ =>
          cases sign <;> cases other <;>
            simp [UnpackedFloat.neg, UnpackedFloat.compare,
              Ordering.swap_then, Int.compare_swap, Nat.compare_swap]

variable {x y : Float}

/-- **Negation reverses the order.** -/
theorem neg_lt_neg_iff : -x < -y ↔ y < x := by
  rw [lt_iff_unpacked, lt_iff_unpacked, unpacked_neg, unpacked_neg]
  unfold UnpackedFloat.lt
  rw [compare_neg]

theorem neg_beq_neg : (-x == -y) = (y == x) := by
  rw [beq_iff_compare, beq_iff_compare, unpacked_neg, unpacked_neg,
    compare_neg]

end Arithmetic
