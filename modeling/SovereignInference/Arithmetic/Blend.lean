import Mathlib.Algebra.Order.BigOperators.Group.List
import Mathlib.Algebra.Order.Field.Basic
import Mathlib.Tactic.Linarith

/-!
# Weighted blends

Scores between zero and one are blended by weights that are not negative and
divided by the sum of the weights.  Some weights may name no score, and a score
without a weight does not count.
-/

namespace Arithmetic

variable {κ K : Type} [DecidableEq κ] [Field K] [LinearOrder K]
  [IsStrictOrderedRing K] {weights scores others : List (κ × K)}

/-- The weight of a key, zero where there is none. -/
def weightUnder (weights : List (κ × K)) (key : κ) : K :=
  ((weights.find? (·.1 = key)).map (·.2)).getD 0

/-- The scores, each times its weight. -/
def weighted (weights scores : List (κ × K)) : K :=
  (scores.map fun score => weightUnder weights score.1 * score.2).sum

/-- The sum of the weights. -/
def totalWeight (weights : List (κ × K)) : K := (weights.map (·.2)).sum

/-- Every weight or score is zero or more. -/
def AllNonneg (entries : List (κ × K)) : Prop :=
  ∀ entry ∈ entries, 0 ≤ entry.2

omit [LinearOrder K] [IsStrictOrderedRing K] in
theorem weightUnder_cons (entry : κ × K) (rest : List (κ × K)) (key : κ) :
    weightUnder (entry :: rest) key =
      if entry.1 = key then entry.2 else weightUnder rest key := by
  unfold weightUnder
  rw [List.find?_cons]
  by_cases here : entry.1 = key
  · simp [here]
  · simp [here]

omit [IsStrictOrderedRing K] in
theorem weightUnder_nonneg (nonneg : AllNonneg weights) (key : κ) :
    0 ≤ weightUnder weights key := by
  induction weights with
  | nil => exact le_refl 0
  | cons entry rest induction =>
      obtain ⟨first, later⟩ := List.forall_mem_cons.mp nonneg
      rw [weightUnder_cons]
      split_ifs
      · exact first
      · exact induction later

/-- One value put in place of another counts at most once. -/
theorem sum_replaced_le {keys : List κ} (distinct : keys.Nodup) {value : K}
    (nonneg : 0 ≤ value) (special : κ) {f : κ → K} (atLeast : ∀ key, 0 ≤ f key) :
    (keys.map fun key => if special = key then value else f key).sum ≤
      value + (keys.map f).sum := by
  induction keys with
  | nil => simpa using nonneg
  | cons key rest induction =>
      obtain ⟨apart, distinct⟩ := List.nodup_cons.mp distinct
      simp only [List.map_cons, List.sum_cons]
      by_cases here : special = key
      · subst here
        have unchanged : (rest.map fun key =>
            if special = key then value else f key) = rest.map f := by
          apply List.map_congr_left
          intro other member
          apply if_neg
          rintro rfl
          exact apart member
        rw [if_pos rfl, unchanged]
        have more := atLeast special
        linarith
      · rw [if_neg here]
        have step := induction distinct
        linarith

/-- Distinct keys have no more weight than there is. -/
theorem sum_weightUnder_le (nonneg : AllNonneg weights) {keys : List κ}
    (distinct : keys.Nodup) :
    (keys.map (weightUnder weights)).sum ≤ totalWeight weights := by
  induction weights with
  | nil =>
      apply le_of_eq
      apply List.sum_eq_zero
      intro value member
      obtain ⟨key, _, rfl⟩ := List.mem_map.mp member
      rfl
  | cons entry rest induction =>
      obtain ⟨first, later⟩ := List.forall_mem_cons.mp nonneg
      have step := sum_replaced_le distinct first entry.1
        (weightUnder_nonneg later)
      have replaced : weightUnder (entry :: rest) = fun key =>
          if entry.1 = key then entry.2 else weightUnder rest key :=
        funext (weightUnder_cons entry rest)
      have below := induction later
      rw [replaced]
      unfold totalWeight at below ⊢
      rw [List.map_cons, List.sum_cons]
      linarith

theorem weighted_nonneg (nonneg : AllNonneg weights)
    (above : AllNonneg scores) : 0 ≤ weighted weights scores := by
  apply List.sum_nonneg
  intro value member
  obtain ⟨score, isScore, rfl⟩ := List.mem_map.mp member
  exact mul_nonneg (weightUnder_nonneg nonneg _) (above score isScore)

/-- The same keys, with scores that are no lower. -/
def NoLower (scores others : List (κ × K)) : Prop :=
  List.Forall₂ (fun score other => score.1 = other.1 ∧ score.2 ≤ other.2)
    scores others

theorem weighted_mono (nonneg : AllNonneg weights)
    (noLower : NoLower scores others) :
    weighted weights scores ≤ weighted weights others := by
  unfold weighted
  induction noLower with
  | nil => exact le_refl _
  | cons pair _ induction =>
      obtain ⟨sameKey, below⟩ := pair
      simp only [List.map_cons, List.sum_cons]
      rw [sameKey]
      exact add_le_add
        (mul_le_mul_of_nonneg_left below (weightUnder_nonneg nonneg _))
        induction

private theorem weighted_le (nonneg : AllNonneg weights)
    (distinct : (scores.map (·.1)).Nodup)
    (atMostOne : ∀ score ∈ scores, score.2 ≤ 1) :
    weighted weights scores ≤ totalWeight weights := by
  have eachBelow : weighted weights scores ≤
      (scores.map fun score => weightUnder weights score.1).sum := by
    apply List.sum_le_sum
    intro score member
    exact mul_le_of_le_one_right (weightUnder_nonneg nonneg _)
      (atMostOne score member)
  have all := sum_weightUnder_le nonneg distinct
  rw [List.map_map] at all
  exact le_trans eachBelow all

/-- A blend is between zero and one. -/
theorem blend_unit (nonneg : AllNonneg weights)
    (positive : 0 < totalWeight weights)
    (distinct : (scores.map (·.1)).Nodup)
    (unit : ∀ score ∈ scores, 0 ≤ score.2 ∧ score.2 ≤ 1) :
    0 ≤ weighted weights scores / totalWeight weights ∧
      weighted weights scores / totalWeight weights ≤ 1 := by
  have above := weighted_nonneg nonneg fun score member =>
    (unit score member).1
  have below := weighted_le nonneg distinct fun score member =>
    (unit score member).2
  exact ⟨div_nonneg above positive.le, (div_le_one positive).mpr below⟩

/-- A blend of scores that are no lower is no lower. -/
theorem blend_mono (nonneg : AllNonneg weights)
    (positive : 0 < totalWeight weights)
    (noLower : NoLower scores others) :
    weighted weights scores / totalWeight weights ≤
      weighted weights others / totalWeight weights :=
  div_le_div_of_nonneg_right (weighted_mono nonneg noLower) positive.le

variable {anchor x y : K}

/-- A measure of zero or less counts as one, and a growing one as ever less. -/
theorem decay_unit (positive : 0 < anchor) (x : K) :
    0 ≤ anchor / (anchor + max x 0) ∧ anchor / (anchor + max x 0) ≤ 1 := by
  have grows : anchor ≤ anchor + max x 0 :=
    le_add_of_nonneg_right (le_max_right x 0)
  have denominator : 0 < anchor + max x 0 := lt_of_lt_of_le positive grows
  exact ⟨div_nonneg positive.le denominator.le,
    (div_le_one denominator).mpr grows⟩

theorem decay_anti (positive : 0 < anchor) (below : x ≤ y) :
    anchor / (anchor + max y 0) ≤ anchor / (anchor + max x 0) := by
  have denominator : 0 < anchor + max x 0 :=
    lt_of_lt_of_le positive (le_add_of_nonneg_right (le_max_right x 0))
  apply div_le_div_of_nonneg_left positive.le denominator
  exact add_le_add_right (max_le_max_right 0 below) anchor

end Arithmetic
