import SovereignInference.SipPic.RedemptionSpec
import SovereignInference.SipProtocol.Verification

/-!
# When a redemption returns

A redemption walks an untrusted payment and raises where a helper cannot deal
with what it finds: an element that is not a dict, a document that cannot be
written, a time that has no place in the calendar, a sum that is too large, a
price that is not a number.
-/

namespace SovereignInference.SipPic

open Python Effects SipProtocol

variable {P : Platform} {terms : Terms} {payment : Dict} {commit : Bool}
  {keys : Finset Text}

/-- If the field holds a time, that time and the present have a place in the
calendar of UTC. -/
def Datable (P : Platform) (document : Dict) (field : Text) (now : DateTime) :
    Prop :=
  ∀ raw moment, document.get field = .str raw →
    DateTime.fromIsoFormat (replace raw 0x5A "+00:00") = some moment →
      (∃ utc, now.toUtc P.localOffset = .ok utc) ∧
        ∃ utc, moment.toUtc P.localOffset = .ok utc

private theorem datable_iff {document : Dict} {field raw : Text}
    {now : DateTime} (stated : document.get field = .str raw) :
    Datable P document field now ↔
      ∀ moment, DateTime.fromIsoFormat (replace raw 0x5A "+00:00") =
          some moment →
        (∃ utc, now.toUtc P.localOffset = .ok utc) ∧
          ∃ utc, moment.toUtc P.localOffset = .ok utc := by
  unfold Datable
  constructor
  · intro datable moment reads
    exact datable raw moment stated reads
  · intro datable other moment isOther reads
    rw [stated, Json.str.injEq] at isOther
    subst isOther
    exact datable moment reads

/-- Comparing the time in a field with the present. -/
theorem comparison_isOk (document : Dict) (field : Text) (now : DateTime)
    (unreadable : Bool) (compare : Int → Int → Bool) :
    (∃ answer, (match document.get field with
      | .str raw =>
          match DateTime.fromIsoFormat (replace raw 0x5A "+00:00") with
          | none => .ok unreadable
          | some moment => do
              let current ← now.toUtc P.localOffset
              let moment ← moment.toUtc P.localOffset
              return compare current moment
      | _ => .ok unreadable : Except PyExc Bool) = .ok answer) ↔
        Datable P document field now := by
  cases stated : document.get field with
  | str raw =>
      rw [datable_iff stated]
      dsimp only
      cases reads : DateTime.fromIsoFormat (replace raw 0x5A "+00:00") with
      | none => simp
      | some moment =>
          cases current : now.toUtc P.localOffset with
          | error error => simp
          | ok utc =>
              cases expiry : moment.toUtc P.localOffset with
              | error error => simp [expiry]
              | ok utc => simp [expiry]
  | _ => simp [Datable, stated]

theorem isExpired_isOk (document : Dict) (now : DateTime) :
    (∃ expired, isExpired P document now = .ok expired) ↔
      Datable P document "expires_at" now :=
  comparison_isOk document "expires_at" now true fun current expiry =>
    decide (expiry ≤ current)

/-- Verifying the voucher can write it, and its expiry can be compared if
everything before that passes. -/
structure VoucherReadable (P : Platform) (terms : Terms) (voucher : Dict) :
    Prop where
  writable : HasSignature voucher "issuer_pubkey" →
    (Json.obj (voucher.without signatureField)).Clean
  datable : ∀ result, verifyVoucher P voucher = .ok result →
    result.valid = true → (voucher.get "unit").isStr terms.unit = true →
      (∃ issuer ∈ terms.issuerPubkeys,
        (voucher.get "issuer_pubkey").isStr issuer = true) →
          Datable P voucher "expires_at" terms.now

private theorem verifyVoucher_isOk (voucher : Dict) :
    (∃ result, verifyVoucher P voucher = .ok result) ↔
      (HasSignature voucher "issuer_pubkey" →
        (Json.obj (voucher.without signatureField)).Clean) :=
  verifySigned_returns _ _ _ voucher

theorem validateVoucher_isOk (voucher : Dict) :
    (∃ reason, validateVoucher P voucher terms.unit terms.issuerPubkeys
      terms.now = .ok reason) ↔ VoucherReadable P terms voucher := by
  unfold validateVoucher
  cases verified : verifyVoucher P voucher with
  | error error =>
      have notWritable := mt (verifyVoucher_isOk voucher).mpr
        (by simp [verified] : ¬ ∃ result, verifyVoucher P voucher = .ok result)
      simp only [error_bind, reduceCtorEq, exists_false, false_iff]
      intro readable
      exact notWritable readable.writable
  | ok result =>
      have writable := (verifyVoucher_isOk voucher).mp ⟨result, verified⟩
      cases valid : result.valid with
      | false =>
          refine iff_of_true (by simp [valid]) ⟨writable, ?_⟩
          intro other same isValid
          rw [verified, Except.ok.injEq] at same
          rw [← same, valid] at isValid
          cases isValid
      | true =>
          cases unit : (voucher.get "unit").isStr terms.unit with
          | false =>
              refine iff_of_true (by simp) ⟨writable, ?_⟩
              intro _ _ _ sameUnit
              rw [unit] at sameUnit
              cases sameUnit
          | true =>
              cases issued : terms.issuerPubkeys.any fun issuer =>
                  (voucher.get "issuer_pubkey").isStr issuer with
              | false =>
                  refine iff_of_true (by simp [valid]) ⟨writable, ?_⟩
                  intro _ _ _ _ known
                  rw [List.any_eq_true.mpr known] at issued
                  cases issued
              | true =>
                  simp only [ok_bind, valid, Bool.not_true,
                    Bool.false_eq_true, if_false]
                  have dates := @isExpired_isOk P voucher terms.now
                  unfold voucherIsExpired
                  constructor
                  · intro returns
                    refine ⟨writable, ?_⟩
                    intro _ _ _ _ _
                    rw [← dates]
                    cases expires : isExpired P voucher terms.now with
                    | error error => simp [expires] at returns
                    | ok expired => exact ⟨expired, rfl⟩
                  · intro readable
                    obtain ⟨expired, expires⟩ := dates.mpr
                      (readable.datable result verified valid unit
                        (List.any_eq_true.mp issued))
                    rw [expires]
                    cases expired with
                    | true => exact ⟨_, rfl⟩
                    | false => exact ⟨_, rfl⟩

/-- Every element is a dict, up to the first that has no id of its own. -/
def IdsReadable : List Json → (seen : List Text) → Prop
  | [], _ => True
  | item :: rest, seen =>
      ∃ voucher : Dict, item = .obj voucher ∧
        ∀ id, Dict.get voucher "voucher_id" = .str id → id ∉ seen →
          IdsReadable rest (id :: seen)

theorem readBatch_isOk (items : List Json) (seen : List Text) :
    (∃ batch, readBatch items seen = .ok batch) ↔ IdsReadable items seen := by
  induction items generalizing seen with
  | nil => exact iff_of_true ⟨_, rfl⟩ trivial
  | cons item rest induction =>
      unfold readBatch IdsReadable
      cases isDict : item.asDict with
      | none =>
          simp only [reduceCtorEq, exists_false, false_iff]
          intro readable
          obtain ⟨voucher, rfl, _⟩ := readable
          cases isDict
      | some voucher =>
          obtain rfl := Json.asDict_eq_some.mp isDict
          dsimp only
          cases hasId : (voucher.get "voucher_id").asStr with
          | none =>
              refine iff_of_true ⟨_, rfl⟩ ⟨voucher, rfl, ?_⟩
              intro id isId
              rw [Json.asStr_eq_some.mpr isId] at hasId
              cases hasId
          | some id =>
              have isId := Json.asStr_eq_some.mp hasId
              by_cases repeated : id ∈ seen
              · simp only [repeated, if_true]
                refine iff_of_true ⟨_, rfl⟩ ⟨voucher, rfl, ?_⟩
                intro other isOther fresh
                rw [isId, Json.str.injEq] at isOther
                exact absurd (isOther ▸ repeated) fresh
              · simp only [repeated, if_false]
                constructor
                · intro returns
                  refine ⟨voucher, rfl, ?_⟩
                  intro other isOther _
                  rw [isId, Json.str.injEq] at isOther
                  subst isOther
                  rw [← induction]
                  cases tail : readBatch rest (id :: seen) with
                  | error error => simp [tail] at returns
                  | ok batch => exact ⟨batch, rfl⟩
                · intro readable
                  obtain ⟨other, same, later⟩ := readable
                  cases same
                  obtain ⟨batch, tail⟩ :=
                    (induction (id :: seen)).mpr (later id isId repeated)
                  simp [tail]

/-- Every voucher is readable and adds to a sum that fits, up to the first
that is not accepted or is spent already. -/
def ChecksReadable (P : Platform) (terms : Terms) (keys : Finset Text) :
    List (Text × Dict) → Decimal → Prop
  | [], _ => True
  | (id, voucher) :: rest, total =>
      VoucherReadable P terms voucher ∧
        (VoucherAccepted P terms voucher → id ∉ keys →
          ∀ amount, denomination voucher = .ok amount →
            ∃ sum, total.add P.precision amount = .ok sum ∧
              ChecksReadable P terms keys rest sum)

private theorem denomination_error {voucher : Dict} {error : PyExc}
    (fails : denomination voucher = .error error) :
    isDenominationError error = true := by
  unfold denomination at fails
  split at fails
  · rename_i amount _
    unfold Decimal.parse at fails
    dsimp only at fails
    split at fails
    · split_ifs at fails
      cases fails
      rfl
    · split at fails
      · cases fails
      · cases fails
        rfl
  · cases fails
    rfl
  · cases fails
    rfl

theorem run_validateBatch_isOk (sound : P.SchemaSound)
    (batch : List (Text × Dict)) {total : Decimal} (finite : total.IsFinite) :
    (∃ decision, (spentTable.run (validateBatch P terms.unit
      terms.issuerPubkeys terms.now batch total) keys).1 = .ok decision) ↔
        ChecksReadable P terms keys batch total := by
  induction batch generalizing total with
  | nil => exact iff_of_true ⟨_, rfl⟩ trivial
  | cons entry rest induction =>
      obtain ⟨id, voucher⟩ := entry
      unfold validateBatch ChecksReadable
      rw [← validateVoucher_isOk]
      cases validated : validateVoucher P voucher terms.unit
          terms.issuerPubkeys terms.now with
      | error error => simp
      | ok reason =>
          cases reason with
          | some reason =>
              have notAccepted : ¬ VoucherAccepted P terms voucher := by
                intro accepted
                rw [validateVoucher_none.mpr accepted] at validated
                cases validated
              simp [notAccepted]
          | none =>
              have accepted := validateVoucher_none.mp validated
              by_cases spent : id ∈ keys
              · simp [spent]
              · cases states : denomination voucher with
                | error error =>
                    have caught : addDenomination P total voucher =
                        .ok none := by
                      simp [addDenomination, states, denomination_error states]
                    simp [spent, caught]
                | ok amount =>
                    have amountFinite :=
                      (denomination_isAmount sound accepted states).isFinite
                    cases added : total.add P.precision amount with
                    | error error =>
                        have overflow := Decimal.add_error finite amountFinite
                          added
                        have raises : addDenomination P total voucher =
                            .error error := by
                          simp [addDenomination, states, added, overflow,
                            isDenominationError]
                        simp [spent, raises, accepted, added]
                    | ok sum =>
                        have adds : addDenomination P total voucher =
                            .ok (some sum) := by
                          simp [addDenomination, states, added]
                        have sumFinite :=
                          Decimal.add_finite finite amountFinite added
                        have later := induction sumFinite
                        simpa [spent, adds, accepted, added] using later

/-- The price is a decimal other than a NaN. -/
def PriceReadable (price : Text) : Prop :=
  ∃ value, Decimal.parse price = .ok value ∧
    ∀ signaling, value ≠ .nan signaling

/-- The vouchers are readable, and so is the price if it comes to that. -/
structure BatchReadable (P : Platform) (terms : Terms) (keys : Finset Text)
    (batch : List (Text × Dict)) : Prop where
  checks : ChecksReadable P terms keys batch .zero
  price : (batchTotal P terms batch .zero).isSome = true →
    (∀ id ∈ batch.map (·.1), id ∉ keys) → PriceReadable terms.price

private theorem batchTotal_finite (sound : P.SchemaSound)
    {batch : List (Text × Dict)} {total sum : Decimal}
    (finite : total.IsFinite)
    (totals : batchTotal P terms batch total = some sum) : sum.IsFinite := by
  induction batch generalizing total with
  | nil =>
      cases totals
      exact finite
  | cons entry rest induction =>
      obtain ⟨id, voucher⟩ := entry
      unfold batchTotal at totals
      split at totals
      · rename_i validated
        split at totals
        · rename_i next added
          refine induction ?_ totals
          have accepted := validateVoucher_none.mp validated
          unfold addDenomination at added
          split at added
          · rename_i next' adds
            cases added
            obtain ⟨amount, states, adds⟩ := bind_eq_ok.mp adds
            exact Decimal.add_finite finite
              (denomination_isAmount sound accepted states).isFinite adds
          · split_ifs at added
            cases added
        · cases totals
      · cases totals

theorem run_redeemBatch_isOk (sound : P.SchemaSound)
    {batch : List (Text × Dict)} (nodup : (batch.map (·.1)).Nodup) :
    (∃ result, (spentTable.run (redeemBatch P batch terms.price terms.unit
      terms.issuerPubkeys terms.now commit) keys).1 = .ok result) ↔
        BatchReadable P terms keys batch := by
  have zeroFinite := Decimal.isAmount_zero.isFinite
  have validated := @run_validateBatch P terms keys batch .zero
  have checks := @run_validateBatch_isOk P terms keys sound batch _ zeroFinite
  unfold redeemBatch
  rw [Prog.bind_eq, Handler.run_bind]
  generalize ran : spentTable.run (validateBatch P terms.unit
    terms.issuerPubkeys terms.now batch .zero) keys = run
  rw [ran] at validated checks
  obtain ⟨outcome, after⟩ := run
  obtain ⟨sameKeys, computes⟩ := validated
  obtain rfl : after = keys := sameKeys
  cases outcome with
  | error error =>
      have notReadable := mt checks.mpr (by simp)
      refine iff_of_false (by simp) ?_
      intro readable
      exact notReadable readable.checks
  | ok decision =>
      have readable := checks.mp ⟨decision, rfl⟩
      cases decision with
      | error reason =>
          refine iff_of_true ⟨_, rfl⟩ ⟨readable, ?_⟩
          intro totals fresh
          obtain ⟨sum, totals⟩ := Option.isSome_iff_exists.mp totals
          have accepted := (computes sum).mpr ⟨totals, fresh⟩
          cases accepted
      | ok total =>
          obtain ⟨totals, fresh⟩ := (computes total).mp rfl
          have finite := batchTotal_finite sound zeroFinite totals
          have consumes := @consumeBatch_outcome commit after _ nodup fresh
            total.toText
          have onPrice : BatchReadable P terms after batch ↔
              PriceReadable terms.price := by
            constructor
            · intro batchReadable
              exact batchReadable.price (by rw [totals]; rfl) fresh
            · intro price
              exact ⟨readable, fun _ _ => price⟩
          rw [onPrice]
          unfold PriceReadable
          dsimp only
          cases Decimal.parse terms.price with
          | error error => simp
          | ok price =>
              have comparable := @Decimal.lt_isOk total price finite
              cases less : total.lt price with
              | error error =>
                  rw [less] at comparable
                  simpa [less] using comparable
              | ok less' =>
                  have notNan := comparable.mp ⟨less', less⟩
                  refine iff_of_true ?_ ⟨price, rfl, notNan⟩
                  cases less' with
                  | true => simp [less]
                  | false => simp [less, consumes]

/-- The list of vouchers can be read, and so can the batch it makes. -/
structure PicReadable (P : Platform) (terms : Terms) (keys : Finset Text)
    (payment : Dict) : Prop where
  ids : ∀ items, (payment.get "vouchers") = .arr items → IdsReadable items []
  batch : ∀ batch, BatchOf payment batch → BatchReadable P terms keys batch

theorem run_redeemPic_isOk (sound : P.SchemaSound) :
    (∃ result, (spentTable.run (redeemPic P payment terms.price terms.unit
      terms.issuerPubkeys terms.now commit) keys).1 = .ok result) ↔
        PicReadable P terms keys payment := by
  unfold redeemPic
  cases listed : (payment.get "vouchers").asList with
  | none =>
      refine iff_of_true ⟨_, rfl⟩ ⟨?_, ?_⟩
      · intro items isList
        rw [Json.asList_eq_some.mpr isList] at listed
        cases listed
      · intro batch isBatch
        rw [Json.asList_eq_some.mpr isBatch.listed] at listed
        cases listed
  | some items =>
      have isList := Json.asList_eq_some.mp listed
      cases items with
      | nil =>
          refine iff_of_true ⟨_, rfl⟩ ⟨?_, ?_⟩
          · intro items sameList
            rw [isList, Json.arr.injEq] at sameList
            rw [← sameList]
            trivial
          · intro batch isBatch
            obtain ⟨first, others, sameList, _⟩ := batchOf_iff.mp isBatch
            rw [listed] at sameList
            cases sameList
      | cons first others =>
          have reads := readBatch_isOk (first :: others) []
          dsimp only
          cases read : readBatch (first :: others) [] with
          | error error =>
              have notReadable := mt reads.mpr (by simp [read])
              refine iff_of_false (by simp) ?_
              intro readable
              exact notReadable (readable.ids _ isList)
          | ok found =>
              have idsReadable := reads.mp ⟨found, read⟩
              have sameIds : ∀ items, payment.get "vouchers" = .arr items →
                  IdsReadable items [] := by
                intro items sameList
                rw [isList, Json.arr.injEq] at sameList
                exact sameList ▸ idsReadable
              have sameBatch : ∀ batch, BatchOf payment batch →
                  found = some batch := by
                intro batch isBatch
                obtain ⟨_, _, sameList, sameRead⟩ := batchOf_iff.mp isBatch
                rw [listed, Option.some.injEq] at sameList
                rw [← sameList, read, Except.ok.injEq] at sameRead
                exact sameRead
              cases found with
              | none =>
                  refine iff_of_true ⟨_, rfl⟩ ⟨sameIds, ?_⟩
                  intro batch isBatch
                  cases sameBatch batch isBatch
              | some batch =>
                  obtain ⟨_, nodup, _⟩ := readBatch_ids read
                  have redeems := @run_redeemBatch_isOk P terms commit keys
                    sound batch nodup
                  refine redeems.trans ⟨?_, ?_⟩
                  · intro readable
                    refine ⟨sameIds, ?_⟩
                    intro other isBatch
                    cases sameBatch other isBatch
                    exact readable
                  · intro readable
                    exact readable.batch batch (batchOf_iff.mpr
                      ⟨first, others, listed, read⟩)

/-- The amount can be written, and if it covers the price so can the signed
part, and its time can be compared if the signature verifies. -/
def X402Readable (P : Platform) (terms : Terms) (inner : Dict) : Prop :=
  (inner.get "unit").isStr terms.unit = true →
    boundTo inner "provider_pubkey" terms.providerPubkey = true →
      boundTo inner "request_id" terms.requestId = true →
        ∃ amount, (inner.get "amount").toStr P.isPrintable = .ok amount ∧
          (covers amount terms.price = true →
            (HasSignature inner "payer_pubkey" →
              (Json.obj (inner.without signatureField)).Clean) ∧
            (verifyDocument P inner "payer_pubkey" = .ok true →
              Datable P inner "issued_at" terms.now))

/-- The checks with any comparison of the times at their end. -/
theorem x402Checks_isOk {inner : Dict}
    (hasNonce : (innerNonce inner).isSome = true)
    (compare : Int → Int → Bool) :
    (∃ verified, (do
      if !(inner.get "unit").isStr terms.unit then return false
      if (innerNonce inner).isNone then return false
      if !boundTo inner "provider_pubkey" terms.providerPubkey then
        return false
      if !boundTo inner "request_id" terms.requestId then return false
      let amount ← (inner.get "amount").toStr P.isPrintable
      if !covers amount terms.price then return false
      if !(← verifyDocument P inner "payer_pubkey") then return false
      match inner.get "issued_at" with
      | .str raw =>
          match DateTime.fromIsoFormat (replace raw 0x5A "+00:00") with
          | none => return false
          | some issued =>
              let current ← terms.now.toUtc P.localOffset
              let issued ← issued.toUtc P.localOffset
              return compare current issued
      | _ => return false : Except PyExc Bool) = .ok verified) ↔
        X402Readable P terms inner := by
  have hasNonce' : (innerNonce inner).isNone = false := by
    simpa using hasNonce
  unfold X402Readable
  rw [← @verifyDocument_isOk P inner "payer_pubkey"]
  cases (inner.get "unit").isStr terms.unit with
  | false => simp
  | true =>
      cases boundTo inner "provider_pubkey" terms.providerPubkey with
      | false => simp [hasNonce']
      | true =>
          cases boundTo inner "request_id" terms.requestId with
          | false => simp [hasNonce']
          | true =>
              cases (inner.get "amount").toStr P.isPrintable with
              | error error => simp [hasNonce']
              | ok amount =>
                  cases covered : covers amount terms.price with
                  | false => simp [hasNonce', covered]
                  | true =>
                      cases verifyDocument P inner "payer_pubkey" with
                      | error error => simp [hasNonce', covered]
                      | ok verified =>
                          cases verified with
                          | false => simp [hasNonce']
                          | true =>
                              have dates := @comparison_isOk P inner
                                "issued_at" terms.now false compare
                              simp only [hasNonce', covered, ok_bind,
                                Bool.not_true, Bool.false_eq_true, if_false]
                              refine dates.trans ?_
                              simp [covered]

theorem verifyX402InnerWithin_isOk {inner : Dict}
    (hasNonce : (innerNonce inner).isSome = true) (maxAge : Int) :
    (∃ verified, verifyX402InnerWithin P maxAge inner terms.price terms.unit
      terms.now terms.providerPubkey terms.requestId = .ok verified) ↔
        X402Readable P terms inner :=
  x402Checks_isOk hasNonce fun current issued =>
    secondsLe (current - issued) maxAge

theorem run_redeemX402_isOk
    (isX402 : (payment.get "scheme").isStr "x402" = true) :
    (∃ result, (spentTable.run (redeemX402 P payment terms.price terms.unit
      terms.now commit terms.providerPubkey terms.requestId) keys).1 =
        .ok result) ↔
      ∀ inner, payment.get "payment" = .obj inner →
        (innerNonce inner).isSome = true → X402Readable P terms inner := by
  unfold redeemX402
  cases hasNonce : x402Nonce payment with
  | none =>
      refine iff_of_true ⟨_, rfl⟩ ?_
      intro inner isInner someNonce
      obtain ⟨nonce, innerHas⟩ := Option.isSome_iff_exists.mp someNonce
      have nonceOf : x402Nonce payment = some nonce := by
        simp [x402Nonce, isInner, Json.asDict, innerHas]
      rw [hasNonce] at nonceOf
      cases nonceOf
  | some nonce =>
      obtain ⟨inner, isDict, innerHas⟩ := Option.bind_eq_some_iff.mp hasNonce
      have isInner := Json.asDict_eq_some.mp isDict
      have someNonce : (innerNonce inner).isSome = true := by simp [innerHas]
      have onInner : (∀ other, payment.get "payment" = .obj other →
          (innerNonce other).isSome = true → X402Readable P terms other) ↔
            X402Readable P terms inner := by
        constructor
        · intro readable
          exact readable inner isInner someNonce
        · intro readable other isOther _
          rw [isInner, Json.obj.injEq] at isOther
          exact isOther ▸ readable
      rw [onInner, ← verifyX402InnerWithin_isOk someNonce maxAgeSeconds]
      have sameCheck : verifyX402Payment P payment terms.price terms.unit
          terms.now terms.providerPubkey terms.requestId =
            verifyX402InnerWithin P maxAgeSeconds inner terms.price terms.unit
              terms.now terms.providerPubkey terms.requestId := by
        simp [verifyX402Payment, verifyX402Within, isX402, isDict]
      have writes := @x402Amount_ok P payment terms.now terms.providerPubkey
        terms.requestId terms.price terms.unit
      rw [sameCheck] at writes
      dsimp only
      rw [sameCheck]
      cases checked : verifyX402InnerWithin P maxAgeSeconds inner terms.price
          terms.unit terms.now terms.providerPubkey terms.requestId with
      | error error => simp
      | ok verified =>
          cases verified with
          | false => exact iff_of_true ⟨_, rfl⟩ ⟨_, rfl⟩
          | true =>
              refine iff_of_true ?_ ⟨_, rfl⟩
              obtain ⟨amount, states⟩ := writes checked
              by_cases spent : x402SpendKey nonce ∈ keys
              · simp [spent]
              · cases commit with
                | false => simp [spent, states]
                | true => simp [spent, states]

private theorem validateVoucher_reason {voucher : Dict} {reason : Text}
    (rejected : validateVoucher P voucher terms.unit terms.issuerPubkeys
      terms.now = .ok (some reason)) : reason ≠ [] := by
  unfold validateVoucher at rejected
  obtain ⟨verified, _, rejected⟩ := bind_eq_ok.mp rejected
  split_ifs at rejected
  · cases rejected
    decide
  · cases rejected
    decide
  · cases rejected
    decide
  · obtain ⟨expired, _, rejected⟩ := bind_eq_ok.mp rejected
    split_ifs at rejected
    · cases rejected
      decide
    · cases rejected

theorem run_validateBatch_reason {batch : List (Text × Dict)}
    {total : Decimal} {reason : Text}
    (rejected : (spentTable.run (validateBatch P terms.unit
      terms.issuerPubkeys terms.now batch total) keys).1 =
        .ok (.error reason)) : reason ≠ [] := by
  induction batch generalizing total with
  | nil => cases rejected
  | cons entry rest induction =>
      obtain ⟨id, voucher⟩ := entry
      unfold validateBatch at rejected
      cases validated : validateVoucher P voucher terms.unit
          terms.issuerPubkeys terms.now with
      | error error => simp [validated] at rejected
      | ok decision =>
          cases decision with
          | some other =>
              have nonempty := validateVoucher_reason validated
              simp only [validated, Prog.bind_eq, Prog.ofExcept_ok,
                Prog.bind_ret, Prog.pure_eq_ret, Handler.run_ret] at rejected
              cases rejected
              exact nonempty
          | none =>
              by_cases spent : id ∈ keys
              · have stated : text "double_spend" = reason := by
                  simpa [validated, spent] using rejected
                rw [← stated]
                decide
              · cases added : addDenomination P total voucher with
                | error error => simp [validated, spent, added] at rejected
                | ok sum =>
                    cases sum with
                    | none =>
                        have stated : text "invalid_voucher" = reason := by
                          simpa [validated, spent, added] using rejected
                        rw [← stated]
                        decide
                    | some sum =>
                        refine @induction sum ?_
                        simpa [validated, spent, added] using rejected

/-- A result that is not good states a reason. -/
def Reasoned (outcome : Except PyExc RedeemResult) : Prop :=
  ∀ result, outcome = .ok result → result.ok = false → result.reason ≠ []

@[simp] theorem reasoned_error (error : PyExc) : Reasoned (.error error) := by
  intro result equality
  cases equality

@[simp] theorem reasoned_ok (scheme total reason : Text) :
    Reasoned (.ok ⟨true, scheme, total, reason⟩) := by
  intro result equality notOk
  cases equality
  cases notOk

theorem reasoned_refused {scheme total reason : Text}
    (nonempty : reason ≠ []) : Reasoned (.ok (refused scheme total reason)) := by
  intro result equality _
  cases equality
  exact nonempty

private theorem run_consumeBatch_reasoned (ids : List Text) (total : Text) :
    Reasoned (spentTable.run (consumeBatch ids total commit) keys).1 := by
  unfold consumeBatch
  cases commit with
  | false => exact reasoned_ok _ _ _
  | true =>
      simp only [Bool.not_true, Bool.false_eq_true, if_false]
      rw [Prog.bind_eq, Handler.run_bind]
      generalize spentTable.run (spendAll ids []) keys = run
      obtain ⟨outcome, after⟩ := run
      cases outcome with
      | error error => exact reasoned_error error
      | ok spent =>
          cases spent with
          | true => exact reasoned_ok _ _ _
          | false => exact reasoned_refused (by decide)

private theorem run_redeemBatch_reasoned (batch : List (Text × Dict)) :
    Reasoned (spentTable.run (redeemBatch P batch terms.price terms.unit
      terms.issuerPubkeys terms.now commit) keys).1 := by
  have rejects := @run_validateBatch_reason P terms keys batch .zero
  unfold redeemBatch
  rw [Prog.bind_eq, Handler.run_bind]
  generalize spentTable.run (validateBatch P terms.unit
    terms.issuerPubkeys terms.now batch .zero) keys = run at rejects
  obtain ⟨outcome, after⟩ := run
  cases outcome with
  | error error => exact reasoned_error error
  | ok decision =>
      cases decision with
      | error reason => exact reasoned_refused (rejects rfl)
      | ok total =>
          dsimp only
          cases Decimal.parse terms.price with
          | error error => exact reasoned_error error
          | ok price =>
              cases less : total.lt price with
              | error error => simp [less]
              | ok less' =>
                  cases less' with
                  | true => simpa [less] using reasoned_refused (by decide)
                  | false => simpa [less] using run_consumeBatch_reasoned _ _

theorem run_redeemPic_reasoned :
    Reasoned (spentTable.run (redeemPic P payment terms.price terms.unit
      terms.issuerPubkeys terms.now commit) keys).1 := by
  unfold redeemPic
  split
  · cases readBatch _ _ with
    | error error => exact reasoned_error error
    | ok found =>
        cases found with
        | none => exact reasoned_refused (by decide)
        | some batch => exact run_redeemBatch_reasoned batch
  · exact reasoned_refused (by decide)

private theorem run_redeemX402_reasoned :
    Reasoned (spentTable.run (redeemX402 P payment terms.price terms.unit
      terms.now commit terms.providerPubkey terms.requestId) keys).1 := by
  unfold redeemX402
  cases x402Nonce payment with
  | none => exact reasoned_refused (by decide)
  | some nonce =>
      dsimp only
      cases verifyX402Payment P payment terms.price terms.unit terms.now
          terms.providerPubkey terms.requestId with
      | error error => exact reasoned_error error
      | ok verified =>
          cases verified with
          | false => exact reasoned_refused (by decide)
          | true =>
              by_cases spent : x402SpendKey nonce ∈ keys
              · simpa [spent] using reasoned_refused (by decide)
              · cases x402Amount P payment terms.price with
                | error error => cases commit <;> simp [spent]
                | ok amount => cases commit <;> simp [spent]

theorem run_redeem_reasoned :
    Reasoned (spentTable.run (redeem P terms payment commit) keys).1 := by
  unfold redeem redeemPayment
  dsimp only
  split_ifs
  · exact run_redeemPic_reasoned
  · exact run_redeemX402_reasoned
  · cases (payment.get "scheme").toStr P.isPrintable with
    | error error => exact reasoned_error error
    | ok scheme => exact reasoned_refused (by decide)

/-- The redemption returns, and it refuses a payment that does not settle or
whose keys are spent, with a reason and without touching the guard. -/
def TotalOn (P : Platform) (terms : Terms) (commit : Bool)
    (keys : Finset Text) (payment : Dict) : Prop :=
  ∃ result after,
    spentTable.run (redeem P terms payment commit) keys = (.ok result, after) ∧
      (¬ (settles P terms payment = true ∧
          ∀ key ∈ paymentKeys payment, key ∉ keys) →
        result.ok = false ∧ result.reason ≠ [] ∧ after = keys)

/-- What the redemption reads of a payment can be read. -/
structure PaymentReadable (P : Platform) (terms : Terms) (keys : Finset Text)
    (payment : Dict) : Prop where
  pic : (payment.get "scheme").isStr "pic" = true →
    PicReadable P terms keys payment
  x402 : (payment.get "scheme").isStr "x402" = true →
    ∀ inner, payment.get "payment" = .obj inner →
      (innerNonce inner).isSome = true → X402Readable P terms inner
  other : (payment.get "scheme").isStr "pic" = false →
    (payment.get "scheme").isStr "x402" = false →
      ∃ scheme, (payment.get "scheme").toStr P.isPrintable = .ok scheme

private theorem run_redeem_isOk (sound : P.SchemaSound) :
    (∃ result, (spentTable.run (redeem P terms payment commit) keys).1 =
      .ok result) ↔ PaymentReadable P terms keys payment := by
  unfold redeem redeemPayment
  dsimp only
  cases isPic : (payment.get "scheme").isStr "pic" with
  | true =>
      have notX402 : (payment.get "scheme").isStr "x402" = false :=
        Json.isStr_other isPic (by decide)
      simp only [if_true]
      rw [run_redeemPic_isOk sound]
      constructor
      · intro readable
        exact ⟨fun _ => readable, by simp [notX402], by simp [isPic]⟩
      · intro readable
        exact readable.pic isPic
  | false =>
      cases isX402 : (payment.get "scheme").isStr "x402" with
      | true =>
          simp only [Bool.false_eq_true, if_false, if_true]
          rw [run_redeemX402_isOk isX402]
          constructor
          · intro readable
            exact ⟨by simp [isPic], fun _ => readable, by simp [isX402]⟩
          · intro readable
            exact readable.x402 isX402
      | false =>
          simp only [Bool.false_eq_true, if_false]
          have onScheme : PaymentReadable P terms keys payment ↔
              ∃ scheme, (payment.get "scheme").toStr P.isPrintable =
                .ok scheme := by
            constructor
            · intro readable
              exact readable.other isPic isX402
            · intro writable
              exact ⟨by simp [isPic], by simp [isX402],
                fun _ _ => writable⟩
          rw [onScheme]
          cases (payment.get "scheme").toStr P.isPrintable with
          | error error => simp
          | ok scheme => exact iff_of_true ⟨_, rfl⟩ ⟨_, rfl⟩

/-- **When a redemption is total.** -/
theorem redeem_total_iff (sound : P.SchemaSound) :
    TotalOn P terms commit keys payment ↔
      PaymentReadable P terms keys payment := by
  rw [← @run_redeem_isOk P terms payment commit keys sound]
  have post := @run_redeem P terms payment commit keys
  have reasoned := @run_redeem_reasoned P terms payment commit keys
  unfold TotalOn
  constructor
  · intro total
    obtain ⟨result, after, returned, _⟩ := total
    exact ⟨result, by rw [returned]⟩
  · intro returns
    obtain ⟨result, returned⟩ := returns
    rw [returned] at reasoned
    refine ⟨result, _, Prod.ext returned rfl, ?_⟩
    intro notGood
    have notRedeemed := mt post.redeemed.mp notGood
    have notOk : result.ok = false := by
      rw [returned, redeemed_ok] at notRedeemed
      simpa using notRedeemed
    exact ⟨notOk, reasoned result rfl notOk, post.unchanged notRedeemed⟩

theorem redeem_total_iff_batch :
    PaymentReadable voucherTable.platform batchTerms ∅ batchPayment := by
  apply (redeem_total_iff voucherTable.platform_schemaSound).mp
  refine ⟨_, _, batchPayment_redeemed, ?_⟩
  intro notGood
  exact absurd (by decide +kernel) notGood

/-- `{"scheme": "pic", "vouchers": [1]}` -/
def numberedPayment : Dict :=
  [("scheme", .str "pic"), ("vouchers", .arr [.int 1])]

private theorem numberedPayment_raises :
    spentTable.run
        (redeem emptyTable.platform batchTerms numberedPayment true) ∅ =
      (.error .attributeError, ∅) := by
  decide +kernel

theorem numberedPayment_not_total :
    ¬ TotalOn emptyTable.platform batchTerms true ∅ numberedPayment := by
  intro total
  obtain ⟨result, after, returned, _⟩ := total
  rw [numberedPayment_raises] at returned
  cases returned

end SovereignInference.SipPic
