import SovereignInference.Python.DecimalValue
import SovereignInference.SipPic.Settlement
import Mathlib.Algebra.BigOperators.Group.List.Basic

/-!
# The value of a batch

A valid voucher has a denomination that is an amount, and with exact sums the
total of a batch is the sum of the denominations.
-/

namespace SovereignInference.SipPic

open Python Effects SipProtocol

variable {P : Platform} {terms : Terms}

/-- The value of a voucher. -/
def faceValue (voucher : Dict) : ℚ :=
  match denomination voucher with
  | .ok amount => amount.toRat
  | .error _ => 0

/-- A string of the shape of an amount starts with a digit. -/
theorem amountRegex_digit {s : Text}
    (shape : Schemas.amountRegex.matchesText s = true) :
    ∃ c rest, s = c :: rest ∧ isDigit c = true := by
  have starts : (s.takeWhile (Regex.inRanges [(0x30, 0x39)])) ≠ [] := by
    intro empty
    simp [Schemas.amountRegex, Regex.matchesText, Regex.rests, empty] at shape
  cases s with
  | nil => exact absurd rfl starts
  | cons c rest =>
      refine ⟨c, rest, rfl, ?_⟩
      cases inside : Regex.inRanges [(0x30, 0x39)] c with
      | false => simp [inside] at starts
      | true => simpa [Regex.inRanges, isDigit, asciiDigit] using inside

theorem verifyVoucher_denomination (sound : P.SchemaSound) {voucher : Dict}
    {result : VerificationResult}
    (verified : verifyVoucher P voucher = .ok result)
    (valid : result.valid = true) :
    ∃ s, voucher.find "denomination" = some (.str s) ∧
      Schemas.amountRegex.matchesText s = true := by
  have noErrors := ((verifySigned_valid verified).mp valid).1
  rw [sound] at noErrors
  obtain ⟨fields, same, required, properties⟩ := Schema.record_valid noErrors
  cases same
  obtain ⟨value, found⟩ := required "denomination" (by decide)
  have typed := properties ("denomination", Schemas.amount)
    (by simp) value found
  obtain ⟨s, rfl, shape⟩ := Schema.string_valid typed
  refine ⟨s, found, ?_⟩
  exact shape _ List.mem_cons_self

/-- The checks on one voucher of a batch, apart from the guard. -/
structure VoucherAccepted (P : Platform) (terms : Terms) (voucher : Dict) :
    Prop where
  verified : ∃ result, verifyVoucher P voucher = .ok result ∧
    result.valid = true
  unit : (voucher.get "unit").isStr terms.unit = true
  issuer : ∃ issuer ∈ terms.issuerPubkeys,
    (voucher.get "issuer_pubkey").isStr issuer = true
  unexpired : voucherIsExpired P voucher terms.now = .ok false

theorem validateVoucher_none {voucher : Dict} :
    validateVoucher P voucher terms.unit terms.issuerPubkeys terms.now =
        .ok none ↔ VoucherAccepted P terms voucher := by
  unfold validateVoucher
  constructor
  · intro validated
    obtain ⟨result, verified, validated⟩ := bind_eq_ok.mp validated
    cases valid : result.valid with
    | false => simp [valid] at validated
    | true =>
        cases unit : (voucher.get "unit").isStr terms.unit with
        | false => simp [valid, unit] at validated
        | true =>
            simp only [valid, unit, Bool.not_true, Bool.false_eq_true,
              if_false] at validated
            split at validated
            · cases validated
            · rename_i issued
              obtain ⟨expired, expires, validated⟩ := bind_eq_ok.mp validated
              cases expired with
              | true => cases validated
              | false =>
                  refine ⟨⟨result, verified, valid⟩, unit, ?_, expires⟩
                  simpa using issued
  · intro accepted
    obtain ⟨result, verified, valid⟩ := accepted.verified
    have issued : (terms.issuerPubkeys.any fun issuer =>
        (voucher.get "issuer_pubkey").isStr issuer) = true :=
      List.any_eq_true.mpr accepted.issuer
    simp [verified, valid, accepted.unit, issued, accepted.unexpired]

theorem denomination_isAmount (sound : P.SchemaSound) {voucher : Dict}
    (accepted : VoucherAccepted P terms voucher) {amount : Decimal}
    (states : denomination voucher = .ok amount) : amount.IsAmount := by
  obtain ⟨result, verified, valid⟩ := accepted.verified
  obtain ⟨s, found, shape⟩ := verifyVoucher_denomination sound verified valid
  obtain ⟨c, rest, rfl, digit⟩ := amountRegex_digit shape
  unfold denomination at states
  rw [found] at states
  exact Decimal.parse_isAmount digit states

theorem faceValue_nonneg (sound : P.SchemaSound) {voucher : Dict}
    (accepted : VoucherAccepted P terms voucher) : 0 ≤ faceValue voucher := by
  unfold faceValue
  split
  · exact (denomination_isAmount sound accepted (by assumption)).toRat_nonneg
  · exact le_rfl

/-- Every voucher of a batch is accepted and states a decimal. -/
def BatchAccepted (P : Platform) (terms : Terms)
    (batch : List (Text × Dict)) : Prop :=
  ∀ entry ∈ batch, VoucherAccepted P terms entry.2 ∧
    ∃ amount, denomination entry.2 = .ok amount

/-- The exact total of an accepted batch. -/
theorem batchTotal_accepted (sound : P.SchemaSound)
    (exact : P.precision = .exact) {batch : List (Text × Dict)}
    {total : Decimal} (amount : total.IsAmount)
    (accepted : BatchAccepted P terms batch) :
    ∃ sum, batchTotal P terms batch total = some sum ∧ sum.IsAmount ∧
      sum.toRat =
        total.toRat + (batch.map fun entry => faceValue entry.2).sum := by
  induction batch generalizing total with
  | nil => exact ⟨total, rfl, amount, by simp⟩
  | cons entry rest induction =>
      obtain ⟨id, voucher⟩ := entry
      obtain ⟨valid, states⟩ := accepted (id, voucher) List.mem_cons_self
      obtain ⟨stated, states⟩ := states
      obtain ⟨middle, added, middleAmount, value⟩ := Decimal.add_exact amount
        (denomination_isAmount sound valid states)
      have adds : addDenomination P total voucher = .ok (some middle) := by
        simp [addDenomination, states, exact, added]
      obtain ⟨sum, total', sumAmount, sumValue⟩ := induction middleAmount
        fun entry member => accepted entry (List.mem_cons_of_mem _ member)
      refine ⟨sum, ?_, sumAmount, ?_⟩
      · unfold batchTotal
        rw [validateVoucher_none.mpr valid]
        simp [adds, total']
      · have face : faceValue voucher = stated.toRat := by
          simp [faceValue, states]
        rw [sumValue, value, List.map_cons, List.sum_cons, face, add_assoc]

private theorem addDenomination_some {voucher : Dict} {total sum : Decimal}
    (adds : addDenomination P total voucher = .ok (some sum)) :
    ∃ amount, denomination voucher = .ok amount := by
  unfold addDenomination at adds
  cases states : denomination voucher with
  | ok amount => exact ⟨amount, rfl⟩
  | error error =>
      rw [states, error_bind] at adds
      dsimp only at adds
      split_ifs at adds
      cases adds

theorem batchTotal_some {batch : List (Text × Dict)} {total sum : Decimal}
    (totalled : batchTotal P terms batch total = some sum) :
    BatchAccepted P terms batch := by
  induction batch generalizing total with
  | nil =>
      intro entry member
      cases member
  | cons entry rest induction =>
      obtain ⟨id, voucher⟩ := entry
      unfold batchTotal at totalled
      split at totalled
      · rename_i validated
        split at totalled
        · rename_i middle adds
          intro other member
          rcases List.mem_cons.mp member with rfl | later
          · exact ⟨validateVoucher_none.mp validated,
              addDenomination_some adds⟩
          · exact induction totalled other later
        · cases totalled
      · cases totalled

/-- The sum of the denominations covers the price. -/
def PriceCovered (price : Text) (total : ℚ) : Prop :=
  ∃ amount level, Decimal.parse price = .ok amount ∧
    amount.bounded = some level ∧ level ≤ total

theorem batchSettles_iff (sound : P.SchemaSound)
    (exact : P.precision = .exact) {batch : List (Text × Dict)} :
    batchSettles P terms batch = true ↔
      BatchAccepted P terms batch ∧
        PriceCovered terms.price
          (batch.map fun entry => faceValue entry.2).sum := by
  unfold batchSettles
  constructor
  · intro settled
    cases totalled : batchTotal P terms batch .zero with
    | none => simp [totalled] at settled
    | some sum =>
        have accepted := batchTotal_some totalled
        obtain ⟨sum', same, amount, value⟩ :=
          batchTotal_accepted sound exact Decimal.isAmount_zero accepted
        rw [totalled, Option.some.injEq] at same
        subst same
        rw [Decimal.toRat_zero, zero_add] at value
        cases priced : Decimal.parse terms.price with
        | error error => simp [totalled, priced] at settled
        | ok price =>
            cases less : sum.lt price with
            | error error => simp [totalled, priced, less] at settled
            | ok less' =>
                simp only [totalled, priced, less, Bool.not_eq_true'] at settled
                subst settled
                obtain ⟨level, bounds, covers⟩ :=
                  Decimal.bounded_of_not_lt amount less
                rw [value] at covers
                exact ⟨accepted, price, level, priced, bounds, covers⟩
  · intro both
    obtain ⟨accepted, price, level, priced, bounds, covers⟩ := both
    obtain ⟨sum, totalled, amount, value⟩ :=
      batchTotal_accepted sound exact Decimal.isAmount_zero accepted
    rw [Decimal.toRat_zero, zero_add] at value
    rw [← value] at covers
    simp [totalled, priced, Decimal.not_lt_of_bounded amount bounds covers]

end SovereignInference.SipPic
