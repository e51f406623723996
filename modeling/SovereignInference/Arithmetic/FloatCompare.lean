import SovereignInference.Arithmetic.FloatOrder

/-!
# Comparisons of floats

Every comparison with a NaN fails; of two other floats the one is at most the
other, or above it.
-/

namespace Arithmetic

open Float.Model
open Float.Model.UnpackedFloat (Sign)

/-- Comparing the other way gives the opposite answer. -/
theorem compare_swap (u v : UnpackedFloat) :
    v.compare u = (u.compare v).map Ordering.swap := by
  cases u with
  | notANumber => cases v <;> rfl
  | infinity sign =>
      cases v with
      | notANumber => cases sign <;> rfl
      | infinity other => cases sign <;> cases other <;> rfl
      | zero other => cases sign <;> rfl
      | finite other _ _ _ => cases sign <;> cases other <;> rfl
  | zero sign =>
      cases v with
      | notANumber => rfl
      | infinity other => cases other <;> rfl
      | zero other => rfl
      | finite other _ _ _ => cases other <;> rfl
  | finite sign m e _ =>
      cases v with
      | notANumber => cases sign <;> rfl
      | infinity other => cases sign <;> cases other <;> rfl
      | zero other => cases sign <;> rfl
      | finite other _ _ _ =>
          cases sign <;> cases other <;>
            simp [UnpackedFloat.compare, Ordering.swap_then, Int.compare_swap,
              Nat.compare_swap]

theorem compare_isSome (u v : UnpackedFloat) :
    (u.compare v).isSome = (!u.isNaN && !v.isNaN) := by
  cases u with
  | notANumber => rfl
  | infinity sign =>
      cases v with
      | notANumber => cases sign <;> rfl
      | infinity other => rfl
      | zero other => cases sign <;> rfl
      | finite other _ _ _ => cases sign <;> rfl
  | zero sign =>
      cases v with
      | notANumber => rfl
      | infinity other => cases other <;> rfl
      | zero other => rfl
      | finite other _ _ _ => cases other <;> rfl
  | finite sign m e _ =>
      cases v with
      | notANumber => cases sign <;> rfl
      | infinity other => cases sign <;> cases other <;> rfl
      | zero other => cases sign <;> rfl
      | finite other _ _ _ => cases sign <;> cases other <;> rfl

private theorem le_iff_unpacked {x y : Float} :
    x ≤ y ↔ (unpacked x).le (unpacked y) = true := by
  change decide (x.toModel ≤ y.toModel) = true ↔ _
  exact decide_eq_true_iff

/-- **Of two floats that are not NaNs one is at most the other.** -/
theorem le_iff_not_lt {x y : Float} :
    x ≤ y ↔ x.isNaN = false ∧ y.isNaN = false ∧ ¬ y < x := by
  have numbers := compare_isSome (unpacked x) (unpacked y)
  have swapped := compare_swap (unpacked x) (unpacked y)
  have nan : ∀ z : Float, z.isNaN = (unpacked z).isNaN := fun _ => rfl
  rw [le_iff_unpacked, lt_iff_unpacked, nan, nan]
  unfold UnpackedFloat.le UnpackedFloat.lt
  rw [swapped]
  cases ordered : (unpacked x).compare (unpacked y) with
  | none =>
      refine iff_of_false (by simp) ?_
      rintro ⟨first, second, _⟩
      rw [ordered, first, second] at numbers
      cases numbers
  | some ordering =>
      rw [ordered] at numbers
      have both : (unpacked x).isNaN = false ∧ (unpacked y).isNaN = false := by
        simpa using numbers.symm
      simp only [both, true_and]
      cases ordering <;> simp

variable {x y : Float}

/-- The place of a float in the order. -/
def place (x : Float) : Position := position (unpacked x)

theorem isNumber_iff : IsNumber x ↔ x.isNaN = false := by
  change (∃ sign, signOf (unpacked x) = some sign) ↔
    (unpacked x).isNaN = false
  cases unpacked x <;> simp [signOf, UnpackedFloat.isNaN]

theorem beq_iff_compare :
    (x == y) = ((unpacked x).compare (unpacked y) == some .eq) := rfl

theorem beq_comm : (x == y) = (y == x) := by
  rw [beq_iff_compare, beq_iff_compare, compare_swap (unpacked x)]
  cases (unpacked x).compare (unpacked y) with
  | none => rfl
  | some ordering => cases ordering <;> rfl

theorem isNumber_of_compare {ordering : Ordering}
    (compared : (unpacked x).compare (unpacked y) = some ordering) :
    IsNumber x ∧ IsNumber y := by
  have numbers := compare_isSome (unpacked x) (unpacked y)
  rw [compared] at numbers
  rw [isNumber_iff, isNumber_iff]
  change (unpacked x).isNaN = false ∧ (unpacked y).isNaN = false
  simpa using numbers.symm

theorem isNumber_of_lt (below : x < y) : IsNumber x ∧ IsNumber y := by
  rw [lt_iff_unpacked] at below
  unfold UnpackedFloat.lt at below
  exact isNumber_of_compare (beq_iff_eq.mp below)

theorem isNumber_of_beq (same : (x == y) = true) :
    IsNumber x ∧ IsNumber y := by
  rw [beq_iff_compare] at same
  exact isNumber_of_compare (beq_iff_eq.mp same)

/-- Numbers are equal at the same place. -/
theorem beq_iff_place (first : IsNumber x) (second : IsNumber y) :
    (x == y) = true ↔ place x = place y := by
  have below := lt_iff_place first second
  have above := lt_iff_place second first
  have compared := compare_isSome (unpacked x) (unpacked y)
  have swapped := compare_swap (unpacked x) (unpacked y)
  have numbers : (unpacked x).isNaN = false ∧ (unpacked y).isNaN = false :=
    ⟨isNumber_iff.mp first, isNumber_iff.mp second⟩
  rw [numbers.1, numbers.2] at compared
  rw [lt_iff_unpacked] at below above
  unfold UnpackedFloat.lt at below above
  rw [swapped] at above
  rw [beq_iff_compare]
  unfold place
  cases isOrdered : (unpacked x).compare (unpacked y) with
  | none =>
      rw [isOrdered] at compared
      cases compared
  | some ordering =>
      rw [isOrdered] at below above
      cases ordering with
      | lt =>
          have less := below.mp (by rfl)
          exact iff_of_false (by decide) less.ne
      | eq =>
          refine iff_of_true (by rfl) (le_antisymm ?_ ?_)
          · exact not_lt.mp fun less => absurd (above.mpr less) (by decide)
          · exact not_lt.mp fun less => absurd (below.mpr less) (by decide)
      | gt =>
          have more := above.mp (by rfl)
          exact iff_of_false (by decide) more.ne'

end Arithmetic
