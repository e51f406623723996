import SovereignInference.Python.Decimal
import SovereignInference.Python.Schema
import Mathlib.Algebra.Order.Field.Power
import Mathlib.Algebra.Order.Ring.Rat
import Mathlib.Algebra.Field.Rat
import Mathlib.Algebra.Order.Monoid.WithTop
import Mathlib.Tactic.Positivity
import Mathlib.Tactic.Ring

/-!
# What decimals stand for

Finite decimals are rational numbers, exact sums are sums, and the order is the
order of the values.  An amount is a finite decimal without a sign; every
numeral that starts with a digit is one.
-/

namespace Python.Decimal

open Effects

/-- The rational number of a finite decimal. -/
def toRat : Decimal → ℚ
  | .finite negative coefficient exponent =>
      value negative coefficient exponent
  | _ => 0

/-- A finite decimal without a sign. -/
def IsAmount (x : Decimal) : Prop :=
  ∃ coefficient exponent, x = .finite false coefficient exponent

/-- A decimal that is neither infinite nor a NaN. -/
def IsFinite (x : Decimal) : Prop :=
  ∃ negative coefficient exponent, x = .finite negative coefficient exponent

theorem IsAmount.isFinite {x : Decimal} (amount : x.IsAmount) : x.IsFinite := by
  obtain ⟨coefficient, exponent, rfl⟩ := amount
  exact ⟨false, coefficient, exponent, rfl⟩

theorem scaled_eq (coefficient exponent : Int) :
    scaled coefficient exponent = coefficient * (10 : ℚ) ^ exponent := by
  unfold scaled
  split_ifs with nonnegative
  · obtain ⟨n, rfl⟩ := Int.eq_ofNat_of_zero_le nonnegative
    simp
  · obtain ⟨n, rfl⟩ : ∃ n : Nat, exponent = -n :=
      ⟨(-exponent).toNat, by omega⟩
    rw [Rat.mkRat_eq_div, zpow_neg, zpow_natCast]
    simp [div_eq_mul_inv]

theorem IsAmount.toRat_nonneg {x : Decimal} (amount : x.IsAmount) :
    0 ≤ x.toRat := by
  obtain ⟨coefficient, exponent, rfl⟩ := amount
  simp only [toRat, value, Bool.false_eq_true, if_false, scaled_eq]
  positivity

theorem isAmount_zero : IsAmount zero := ⟨0, 0, rfl⟩

@[simp] theorem toRat_zero : toRat zero = 0 := by
  simp [zero, toRat, value, scaled_eq]

/-- Exact sums of amounts are amounts and add their values. -/
theorem add_exact {x y : Decimal} (left : x.IsAmount) (right : y.IsAmount) :
    ∃ sum, x.add .exact y = .ok sum ∧ sum.IsAmount ∧
      sum.toRat = x.toRat + y.toRat := by
  obtain ⟨c, e, rfl⟩ := left
  obtain ⟨d, f, rfl⟩ := right
  have base : (10 : ℚ) ≠ 0 := by norm_num
  have shift : ∀ g : Int, min e f ≤ g →
      (10 : ℚ) ^ g = 10 ^ (g - min e f).toNat * 10 ^ min e f := by
    intro g above
    rw [← zpow_natCast, ← zpow_add₀ base]
    congr 1
    omega
  have nonnegative : (0 : Int) ≤ c * 10 ^ (e - min e f).toNat +
      d * 10 ^ (f - min e f).toNat := by positivity
  have added : add .exact (.finite false c e) (.finite false d f) =
      .ok (.finite false (c * 10 ^ (e - min e f).toNat +
        d * 10 ^ (f - min e f).toNat : Int).natAbs (min e f)) := by
    unfold add finish
    simp only [Bool.false_eq_true, if_false, Bool.and_false]
    rw [decide_eq_false (not_lt.mpr nonnegative), ite_self]
  refine ⟨_, added, ⟨_, _, rfl⟩, ?_⟩
  simp only [toRat, value, Bool.false_eq_true, if_false, scaled_eq]
  rw [Int.natAbs_of_nonneg nonnegative, shift e (min_le_left _ _),
    shift f (min_le_right _ _)]
  push_cast
  ring

theorem finish_finite {precision : Precision} {negative : Bool}
    {coefficient : Nat} {exponent : Int} {x : Decimal}
    (finished : finish precision negative coefficient exponent = .ok x) :
    x.IsFinite := by
  unfold finish at finished
  cases precision with
  | exact =>
      cases finished
      exact ⟨_, _, _, rfl⟩
  | digits count =>
      dsimp only at finished
      split_ifs at finished
      all_goals
        cases finished
        exact ⟨_, _, _, rfl⟩

theorem finish_error {precision : Precision} {negative : Bool}
    {coefficient : Nat} {exponent : Int} {error : PyExc}
    (fails : finish precision negative coefficient exponent = .error error) :
    error = .decimalOverflow := by
  unfold finish at fails
  cases precision with
  | exact => cases fails
  | digits count =>
      dsimp only at fails
      split_ifs at fails
      all_goals
        cases fails
        rfl

theorem add_finite {precision : Precision} {x y sum : Decimal}
    (left : x.IsFinite) (right : y.IsFinite)
    (added : x.add precision y = .ok sum) : sum.IsFinite := by
  obtain ⟨_, _, _, rfl⟩ := left
  obtain ⟨_, _, _, rfl⟩ := right
  exact finish_finite added

/-- Sums of finite decimals fail only by being too large. -/
theorem add_error {precision : Precision} {x y : Decimal} {error : PyExc}
    (left : x.IsFinite) (right : y.IsFinite)
    (fails : x.add precision y = .error error) : error = .decimalOverflow := by
  obtain ⟨_, _, _, rfl⟩ := left
  obtain ⟨_, _, _, rfl⟩ := right
  exact finish_error fails

/-- A comparison with a finite decimal fails only for a NaN. -/
theorem lt_isOk {x price : Decimal} (finite : x.IsFinite) :
    (∃ less, x.lt price = .ok less) ↔ ∀ signaling, price ≠ .nan signaling := by
  obtain ⟨_, _, _, rfl⟩ := finite
  unfold lt
  cases price with
  | finite _ _ _ => simp [order]
  | infinity _ => simp [order]
  | nan signaling => simp [order]

/-- The values a comparison can bound from above: all but the NaNs and the
positive infinity. -/
def bounded : Decimal → Option (WithBot ℚ)
  | .finite negative coefficient exponent =>
      some (value negative coefficient exponent)
  | .infinity true => some ⊥
  | _ => none

/-- An amount that is not below a price bounds it. -/
theorem bounded_of_not_lt {x price : Decimal} (amount : x.IsAmount)
    (covers : x.lt price = .ok false) :
    ∃ level, price.bounded = some level ∧ level ≤ x.toRat := by
  obtain ⟨c, e, rfl⟩ := amount
  unfold lt at covers
  cases price with
  | finite negative d f =>
      refine ⟨_, rfl, ?_⟩
      simp only [order, Except.ok.injEq, beq_eq_false_iff_ne, ne_eq,
        compare_lt_iff_lt, not_lt] at covers
      exact WithBot.coe_le_coe.mpr covers
  | infinity negative =>
      cases negative with
      | true => exact ⟨⊥, rfl, bot_le⟩
      | false => simp [order] at covers
  | nan signaling => cases covers

theorem not_lt_of_bounded {x price : Decimal} (amount : x.IsAmount)
    {level : WithBot ℚ} (bounds : price.bounded = some level)
    (covers : level ≤ x.toRat) : x.lt price = .ok false := by
  obtain ⟨c, e, rfl⟩ := amount
  unfold lt
  cases price with
  | finite negative d f =>
      cases bounds
      have ordered := WithBot.coe_le_coe.mp covers
      simp only [order, Except.ok.injEq, beq_eq_false_iff_ne, ne_eq,
        compare_lt_iff_lt, not_lt]
      exact ordered
  | infinity negative =>
      cases negative with
      | true => rfl
      | false => cases bounds
  | nan signaling => cases bounds

theorem digit_bounds {c : CodePoint} (digit : isDigit c = true) :
    0x30 ≤ c.val ∧ c.val ≤ 0x39 := by
  unfold isDigit asciiDigit at digit
  split_ifs at digit with bounds
  · exact bounds
  · cases digit

theorem isSpace_digit {c : CodePoint} (digit : isDigit c = true) :
    isSpace c = false := by
  obtain ⟨low, high⟩ := digit_bounds digit
  simp only [isSpace, List.contains_eq_mem, List.mem_cons, List.not_mem_nil,
    or_false, Bool.or_eq_false_iff, Bool.and_eq_false_iff,
    decide_eq_false_iff_not]
  omega

/-- A digit in front stays in front. -/
theorem toAscii_digit {c : CodePoint} (digit : isDigit c = true)
    (rest : Text) : ∃ later, toAscii (c :: rest) = c :: later := by
  have bounds := digit_bounds digit
  have kept : ∃ middle, strip isSpace (c :: rest) = c :: middle := by
    unfold strip
    rw [List.dropWhile_cons_of_neg (by simp [isSpace_digit digit])]
    rw [List.reverse_cons, List.dropWhile_append]
    split_ifs with blank
    · refine ⟨[], ?_⟩
      rw [List.dropWhile_cons_of_neg (by simp [isSpace_digit digit])]
      rfl
    · exact ⟨_, by rw [List.reverse_append]; rfl⟩
  obtain ⟨middle, stripped⟩ := kept
  unfold toAscii
  rw [stripped]
  have notUnderscore : (c.val ≠ 0x5F) := by omega
  have ascii : c.val < 0x80 := by omega
  simp [notUnderscore, ascii]

theorem readSign_digit {c : CodePoint} (digit : isDigit c = true)
    (rest : Text) : readSign (c :: rest) = (false, c :: rest) := by
  have bounds := digit_bounds digit
  unfold readSign
  dsimp only
  rw [if_neg (by omega), if_neg (by omega)]

theorem readNumeral_digit {c : CodePoint} (digit : isDigit c = true)
    {rest : Text} {numeral : Numeral}
    (read : readNumeral (c :: rest) = some numeral) :
    numeral.negative = false := by
  unfold readNumeral at read
  rw [readSign_digit digit] at read
  dsimp only at read
  split_ifs at read
  all_goals
    obtain ⟨exponent, _, rfl⟩ := Option.map_eq_some_iff.mp read
    rfl

/-- No special value starts with a digit. -/
theorem readSpecial_digit {c : CodePoint} (digit : isDigit c = true)
    (rest : Text) : readSpecial (c :: rest) = none := by
  have bounds := digit_bounds digit
  have lower : asciiLower (c :: rest) = c :: asciiLower rest := by
    simp only [asciiLower, List.map_cons]
    rw [if_neg (by omega)]
  have head : ∀ (word : Text) (d : CodePoint), word.head? = some d →
      0x39 < d.val → c :: asciiLower rest ≠ word := by
    rintro word d isHead above rfl
    cases isHead
    omega
  have noWord : ∀ (word : Text) (d : CodePoint), word.head? = some d →
      0x39 < d.val → dropWord (c :: rest) word = none := by
    intro word d isHead above
    cases word with
    | nil => cases isHead
    | cons first others =>
        cases isHead
        have different : d ≠ c := by
          rintro rfl
          omega
        simp [dropWord, startsWith, lower, different]
  unfold readSpecial
  rw [readSign_digit digit]
  simp only [lower, head "inf" 0x69 (by decide) (by decide),
    head "infinity" 0x69 (by decide) (by decide),
    noWord "nan" 0x6E (by decide) (by decide),
    noWord "snan" 0x73 (by decide) (by decide), or_self, if_false]

/-- A numeral that starts with a digit is read as an amount. -/
theorem parse_isAmount {c : CodePoint} {rest : Text} {x : Decimal}
    (digit : isDigit c = true) (parsed : parse (c :: rest) = .ok x) :
    x.IsAmount := by
  obtain ⟨later, converted⟩ := toAscii_digit digit rest
  unfold parse at parsed
  rw [converted] at parsed
  dsimp only at parsed
  cases read : readNumeral (c :: later) with
  | none => simp [read, readSpecial_digit digit] at parsed
  | some numeral =>
      simp only [read] at parsed
      split_ifs at parsed
      cases parsed
      exact ⟨_, _, by rw [readNumeral_digit digit read]⟩

end Python.Decimal
