import SovereignInference.Python.FixedPoint
import SovereignInference.Python.RegexLanguage
import SovereignInference.SipProtocol.Schemas

/-!
# Amounts

The pattern of an amount accepts the decimals without sign and exponent.
-/

namespace SovereignInference.SipProtocol

open Python

/-- A decimal without sign and exponent: digits, and perhaps a point and more
digits. -/
def IsPlain (s : Text) : Prop :=
  ∃ whole kept, IsDigits whole ∧ whole ≠ [] ∧ IsDigits kept ∧
    s = trimmed whole kept

private theorem inRanges_digits (c : CodePoint) :
    Regex.inRanges [(0x30, 0x39)] c = isDigit c := by
  unfold Regex.inRanges isDigit asciiDigit
  by_cases digit : 0x30 ≤ c.val ∧ c.val ≤ 0x39
  · simp [digit]
  · rw [if_neg digit]
    simpa using digit

private theorem digits_accepted {s : Text} :
    (Regex.repeated [(0x30, 0x39)] 1 none).Accepts s ↔
      IsDigits s ∧ s ≠ [] := by
  simp only [Regex.Accepts, inRanges_digits]
  constructor
  · rintro ⟨digits, long, _⟩
    refine ⟨digits, ?_⟩
    rintro rfl
    simp at long
  · rintro ⟨digits, nonempty⟩
    refine ⟨digits, List.length_pos_iff.mpr nonempty, ?_⟩
    intro bound isBound
    cases isBound

theorem amount_accepted {s : Text} :
    Schemas.amountRegex.Accepts s ↔ IsPlain s := by
  unfold Schemas.amountRegex
  simp only [Regex.Accepts]
  constructor
  · rintro ⟨whole, _, rfl, accepted, rfl | ⟨_, kept, rfl, rfl, accepted'⟩⟩
    · obtain ⟨digits, nonempty⟩ := digits_accepted.mp accepted
      exact ⟨whole, [], digits, nonempty, List.forall_mem_nil _, by simp [trimmed]⟩
    · obtain ⟨digits, nonempty⟩ := digits_accepted.mp accepted
      obtain ⟨digits', nonempty'⟩ := digits_accepted.mp accepted'
      refine ⟨whole, kept, digits, nonempty, digits', ?_⟩
      unfold trimmed
      rw [if_neg nonempty']
      rfl
  · rintro ⟨whole, kept, digits, nonempty, digits', rfl⟩
    have accepted := digits_accepted.mpr ⟨digits, nonempty⟩
    unfold trimmed
    split_ifs with empty
    · exact ⟨whole, [], by simp, accepted, .inl rfl⟩
    · refine ⟨whole, 0x2E :: kept, rfl, accepted, .inr ⟨[0x2E], kept, rfl, rfl, ?_⟩⟩
      exact digits_accepted.mpr ⟨digits', empty⟩

end SovereignInference.SipProtocol
