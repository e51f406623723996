import SovereignInference.SipProtocol.Amounts

/-!
# Prices as texts

A price is rounded to six decimals, written with all six, and stripped of the
zeros at the end of its fraction.  Here both roundings are exact.
-/

namespace SovereignInference.SipGateway

open Arithmetic Python SipProtocol

/-- `round(v, 6)`. -/
def roundSix (value : ℚ) : ℚ := halfEven (value * 10 ^ 6) / 10 ^ 6

/-- `f"{v:.6f}"`. -/
def formatSix (value : ℚ) : Text := sixPlaces (halfEven (value * 10 ^ 6))

/-- `_format_amount` of a rational number. -/
def formatAmountExact (value : ℚ) : Text :=
  let rounded := roundSix value
  let amount := rstrip 0x2E (rstrip 0x30 (formatSix rounded))
  if amount = [] then "0" else amount

private theorem halfEven_roundSix (value : ℚ) :
    halfEven (roundSix value * 10 ^ 6) = halfEven (value * 10 ^ 6) := by
  have whole : roundSix value * 10 ^ 6 =
      (halfEven (value * 10 ^ 6) : ℚ) := by
    unfold roundSix
    exact div_mul_cancel₀ _ (by norm_num)
  rw [whole, halfEven_intCast]

theorem formatAmountExact_eq (value : ℚ) :
    formatAmountExact value = formatExact value := by
  unfold formatAmountExact formatSix formatExact
  simp only [halfEven_roundSix]

theorem decimalOf_formatAmountExact (value : ℚ) :
    decimalOf (formatAmountExact value) = some (roundSix value) := by
  rw [formatAmountExact_eq, decimalOf_formatExact]
  rfl

theorem roundSix_mono {v w : ℚ} (order : v ≤ w) :
    roundSix v ≤ roundSix w := by
  have units : halfEven (v * 10 ^ 6) ≤ halfEven (w * 10 ^ 6) :=
    halfEven_mono (mul_le_mul_of_nonneg_right order (by norm_num))
  unfold roundSix
  exact div_le_div_of_nonneg_right (Int.cast_le.mpr units) (by norm_num)

theorem isPlain_of_isTrimmed {s : Text} (shape : IsTrimmed s) : IsPlain s := by
  obtain ⟨whole, kept, digits, nonempty, digits', _, same⟩ := shape
  exact ⟨whole, kept, digits, nonempty, digits', same⟩

/-- A fraction does not end in zero. -/
theorem last_of_isTrimmed {s : Text} (shape : IsTrimmed s)
    (point : 0x2E ∈ s) : s.getLast? ≠ some 0x30 := by
  obtain ⟨whole, kept, digits, nonempty, digits', last, rfl⟩ := shape
  unfold trimmed at point ⊢
  split_ifs at point ⊢ with empty
  · have digit := digits _ point
    cases digit
  · rw [List.getLast?_append, List.getLast?_cons]
    cases final : kept.getLast? with
    | none => exact absurd (List.getLast?_eq_none_iff.mp final) empty
    | some c =>
        rw [final] at last
        exact last

/-- **A price is written exactly**: its text is an amount with no zero at the
end of its fraction, it stands for the price rounded to six decimals, and a
greater price does not get a smaller one. -/
theorem format_amount {value : ℚ} (nonnegative : 0 ≤ value) :
    Schemas.amountRegex.Accepts (formatAmountExact value) ∧
    (0x2E ∈ formatAmountExact value →
      (formatAmountExact value).getLast? ≠ some 0x30) ∧
    decimalOf (formatAmountExact value) = some (roundSix value) ∧
    ∀ {greater : ℚ}, value ≤ greater →
      (∃ lower upper, decimalOf (formatAmountExact value) = some lower ∧
        decimalOf (formatAmountExact greater) = some upper ∧ lower ≤ upper) ∧
      ∀ {x y : Decimal}, Decimal.parse (formatAmountExact value) = .ok x →
        Decimal.parse (formatAmountExact greater) = .ok y →
          x.le y = .ok true := by
  have shape : IsTrimmed (formatAmountExact value) := by
    rw [formatAmountExact_eq]
    exact isTrimmed_formatExact nonnegative
  have written := decimalOf_formatAmountExact value
  refine ⟨?_, last_of_isTrimmed shape, written, ?_⟩
  · exact amount_accepted.mpr (isPlain_of_isTrimmed shape)
  intro greater order
  have written' := decimalOf_formatAmountExact greater
  refine ⟨⟨_, _, written, written', roundSix_mono order⟩, ?_⟩
  intro x y parsed parsed'
  exact decimalOf_le written written' (roundSix_mono order) parsed parsed'

theorem format_amount_ten :
    Schemas.amountRegex.Accepts (formatAmountExact (5 / 2)) ∧
    decimalOf (formatAmountExact (5 / 2)) = some (roundSix (5 / 2)) ∧
    formatAmountExact 10 = "10" ∧
    (Decimal.finite false 25 (-1)).le (.finite false 10 0) = .ok true := by
  obtain ⟨accepted, _, written, later⟩ :=
    format_amount (by norm_num : (0 : ℚ) ≤ 5 / 2)
  have first : Decimal.parse (formatAmountExact (5 / 2)) =
      .ok (.finite false 25 (-1)) := by decide +kernel
  have second : Decimal.parse (formatAmountExact 10) =
      .ok (.finite false 10 0) := by decide +kernel
  have order := (later (by norm_num : (5 / 2 : ℚ) ≤ 10)).2 first second
  exact ⟨accepted, written, by decide +kernel, order⟩

example : formatAmountExact (1 / 3) = "0.333333" := by decide +kernel

end SovereignInference.SipGateway
