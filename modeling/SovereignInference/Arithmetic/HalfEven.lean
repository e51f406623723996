import Mathlib.Algebra.Order.Floor.Ring
import Mathlib.Algebra.Order.Field.Basic
import Mathlib.Tactic.Linarith

/-!
# Rounding half to even

The nearest integer, and of two nearest the even one.  It is the floor or the
next integer, so rounding keeps the order.
-/

namespace Arithmetic

variable {K : Type*} [Field K] [LinearOrder K] [FloorRing K]

/-- The nearest integer, ties to the even one. -/
def halfEven (x : K) : ℤ :=
  if Int.fract x < 1 / 2 then ⌊x⌋
  else if 1 / 2 < Int.fract x then ⌊x⌋ + 1
  else ⌊x⌋ + ⌊x⌋ % 2

theorem floor_le_halfEven (x : K) : ⌊x⌋ ≤ halfEven x := by
  unfold halfEven
  split_ifs <;> omega

theorem halfEven_le_floor_add_one (x : K) : halfEven x ≤ ⌊x⌋ + 1 := by
  unfold halfEven
  split_ifs <;> omega

/-- Within one unit the greater part is rounded to the greater integer. -/
theorem halfEven_le_of_floor_eq {x y : K} (same : ⌊x⌋ = ⌊y⌋)
    (order : Int.fract x ≤ Int.fract y) : halfEven x ≤ halfEven y := by
  unfold halfEven
  rw [← same]
  by_cases below : Int.fract y < 1 / 2
  · rw [if_pos below, if_pos (order.trans_lt below)]
  · rw [if_neg below]
    by_cases above : 1 / 2 < Int.fract y
    · rw [if_pos above]
      split_ifs <;> omega
    · rw [if_neg above]
      have notAbove : ¬ 1 / 2 < Int.fract x :=
        fun more => above (more.trans_le order)
      rw [if_neg notAbove]
      split_ifs <;> omega

variable [IsStrictOrderedRing K]

theorem halfEven_intCast (n : ℤ) : halfEven (n : K) = n := by
  unfold halfEven
  rw [Int.fract_intCast, if_pos (by norm_num), Int.floor_intCast]

theorem halfEven_of_near {x : K} {n : ℤ} (near : |x - n| < 1 / 2) :
    halfEven x = n := by
  obtain ⟨left, right⟩ := abs_lt.mp near
  unfold halfEven Int.fract
  by_cases atLeast : (n : K) ≤ x
  · have floor : ⌊x⌋ = n := by
      rw [Int.floor_eq_iff]
      constructor <;> linarith
    rw [floor, if_pos right]
  · have floor : ⌊x⌋ = n - 1 := by
      rw [Int.floor_eq_iff]
      push_cast
      constructor <;> linarith
    rw [floor]
    push_cast
    rw [if_neg (by linarith), if_pos (by linarith)]
    omega

/-- **Rounding keeps the order.** -/
theorem halfEven_mono {x y : K} (order : x ≤ y) :
    halfEven x ≤ halfEven y := by
  have floors : ⌊x⌋ ≤ ⌊y⌋ := Int.floor_le_floor order
  rcases floors.eq_or_lt with same | less
  · apply halfEven_le_of_floor_eq same
    have parts : (⌊x⌋ : K) = ⌊y⌋ := congrArg _ same
    unfold Int.fract
    linarith
  · calc halfEven x ≤ ⌊x⌋ + 1 := halfEven_le_floor_add_one x
      _ ≤ ⌊y⌋ := less
      _ ≤ halfEven y := floor_le_halfEven y

end Arithmetic
