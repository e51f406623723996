import SovereignInference.SipPic.Issuer
import SovereignInference.SipPic.RedemptionSpec
import SovereignInference.SipPic.WalletSelection

/-!
# Payments that are made and redeemed

A payer picks vouchers for a price or signs it.  Redeeming adds the vouchers up
as the payer did, and reads the signed text as it was written, so what decides
is the vouchers, their expiry, the age and the guard.
-/

namespace SovereignInference.SipPic

open Python Effects SipProtocol

variable {P : Platform} {terms : Terms} {commit : Bool} {keys : Finset Text}
  {current : Int}

namespace Wallet

variable {precision : Precision} {held picked rest : List HeldVoucher}
  {price unit : Text} {target total accumulated : Decimal}

/-- The picked vouchers are of the unit, and their sum is not below the
target. -/
structure Reaches (precision : Precision) (unit : Text)
    (target accumulated : Decimal) (picked : List HeldVoucher) : Prop where
  ofUnit : ∀ voucher ∈ picked, isOfUnit unit voucher = true
  enough : ∃ sum, balance precision unit picked accumulated = .ok sum ∧
    sum.lt target = .ok false

theorem pick_reaches
    (picks : pick precision target unit held accumulated = .ok picked)
    (isTotal : balance precision unit held accumulated = .ok total)
    (enough : total.lt target = .ok false) :
    Reaches precision unit target accumulated picked := by
  induction held generalizing accumulated picked with
  | nil =>
      cases picks
      exact ⟨nofun, total, isTotal, enough⟩
  | cons voucher others induction =>
      unfold pick at picks
      obtain ⟨less, compared, picks⟩ := bind_eq_ok.mp picks
      cases less with
      | false =>
          cases picks
          exact ⟨nofun, accumulated, rfl, compared⟩
      | true =>
          unfold balance at isTotal
          simp only [Bool.not_true, Bool.false_eq_true, if_false] at picks
          by_cases isUnit : (voucher.voucher.get "unit").isStr unit = true
          · rw [if_pos isUnit] at picks isTotal
            obtain ⟨value, isValue, picks⟩ := bind_eq_ok.mp picks
            obtain ⟨sum, isSum, picks⟩ := bind_eq_ok.mp picks
            obtain ⟨later, tail, picks⟩ := bind_eq_ok.mp picks
            cases picks
            simp only [isValue, isSum, ok_bind] at isTotal
            obtain ⟨ofUnit, reached, isReached, notLess⟩ :=
              induction tail isTotal
            refine ⟨List.forall_mem_cons.mpr ⟨isUnit, ofUnit⟩, reached, ?_,
              notLess⟩
            unfold balance
            rw [if_pos isUnit, isValue, ok_bind, isSum, ok_bind]
            exact isReached
          · rw [if_neg isUnit] at picks isTotal
            exact induction picks isTotal

theorem select_eq_ok
    (selects : select precision held price unit = .ok (picked, rest)) :
    ∃ target total, Decimal.parse price = .ok target ∧
      balance precision unit held .zero = .ok total ∧
      total.lt target = .ok false ∧
      pick precision target unit held .zero = .ok picked := by
  unfold select at selects
  obtain ⟨target, isTarget, selects⟩ := bind_eq_ok.mp selects
  obtain ⟨total, isTotal, selects⟩ := bind_eq_ok.mp selects
  obtain ⟨less, compared, selects⟩ := bind_eq_ok.mp selects
  cases less with
  | true => cases selects
  | false =>
      obtain ⟨taken, picks, selects⟩ := bind_eq_ok.mp selects
      cases selects
      exact ⟨target, total, isTarget, isTotal, compared, picks⟩

theorem select_sublist
    (selects : select precision held price unit = .ok (picked, rest)) :
    picked.Sublist held := by
  obtain ⟨target, _, _, _, _, picks⟩ := select_eq_ok selects
  exact pick_sublist picks

theorem select_reaches
    (selects : select precision held price unit = .ok (picked, rest)) :
    ∃ target, Decimal.parse price = .ok target ∧
      Reaches precision unit target .zero picked := by
  obtain ⟨target, total, isTarget, isTotal, enough, picks⟩ :=
    select_eq_ok selects
  exact ⟨target, isTarget, pick_reaches picks isTotal enough⟩

end Wallet

/-- A held voucher and the fields that some issuer put into it. -/
structure PickedCredit where
  fields : VoucherFields
  held : HeldVoucher

/-- The issuer of the credit signed it. -/
def PickedCredit.Signed (P : Platform) (credit : PickedCredit) : Prop :=
  ∃ issuer, P.SignsFor issuer.keypair ∧
    Issued P issuer credit.fields credit.held.voucher

/-- The entry of the credit in a batch. -/
def PickedCredit.entry (credit : PickedCredit) : Text × Dict :=
  (credit.fields.voucherId, credit.held.voucher)

variable {credits : List PickedCredit}

theorem exists_credits {held : List HeldVoucher}
    (issued : ∀ voucher ∈ held, ∃ issuer, P.SignsFor issuer.keypair ∧
      FromIssuer P issuer voucher.voucher) :
    ∃ credits : List PickedCredit, credits.map (·.held) = held ∧
      ∀ credit ∈ credits, credit.Signed P := by
  induction held with
  | nil => exact ⟨[], rfl, nofun⟩
  | cons voucher others induction =>
      obtain ⟨⟨issuer, signs, issues⟩, later⟩ := List.forall_mem_cons.mp issued
      obtain ⟨fields, issues⟩ := issues.issued
      obtain ⟨credits, same, signed⟩ := induction later
      refine ⟨⟨fields, voucher⟩ :: credits, by rw [List.map_cons, same], ?_⟩
      exact List.forall_mem_cons.mpr ⟨⟨issuer, signs, issues⟩, signed⟩

theorem PickedCredit.Signed.states {credit : PickedCredit} (signed : credit.Signed P) :
    States P credit.fields credit.held.voucher := by
  obtain ⟨_, _, issues⟩ := signed
  exact issues.appended.1

/-- Redeeming adds up the sum that was picked. -/
theorem batchTotal_credits {unit : Text} {accumulated sum : Decimal}
    (signed : ∀ credit ∈ credits, credit.Signed P)
    (accepted : ∀ credit ∈ credits, VoucherAccepted P terms credit.held.voucher)
    (ofUnit : ∀ credit ∈ credits,
      Wallet.isOfUnit unit credit.held = true)
    (isSum : Wallet.balance P.precision unit (credits.map (·.held))
      accumulated = .ok sum) :
    batchTotal P terms (credits.map PickedCredit.entry) accumulated = some sum := by
  induction credits generalizing accumulated with
  | nil =>
      cases isSum
      rfl
  | cons credit others induction =>
      obtain ⟨isSigned, signed⟩ := List.forall_mem_cons.mp signed
      obtain ⟨isAccepted, accepted⟩ := List.forall_mem_cons.mp accepted
      obtain ⟨isUnit, ofUnit⟩ := List.forall_mem_cons.mp ofUnit
      have stated := isSigned.states.denomination
      have sameAmount : heldAmount credit.held.voucher =
          denomination credit.held.voucher := by
        unfold heldAmount denomination
        rw [stated]
        rfl
      rw [List.map_cons] at isSum
      unfold Wallet.balance at isSum
      rw [if_pos (show (credit.held.voucher.get "unit").isStr unit = true from
        isUnit), sameAmount] at isSum
      obtain ⟨value, isValue, isSum⟩ := bind_eq_ok.mp isSum
      obtain ⟨next, added, isSum⟩ := bind_eq_ok.mp isSum
      rw [List.map_cons]
      unfold batchTotal PickedCredit.entry
      simp only [validateVoucher_none.mpr isAccepted]
      have adds : addDenomination P accumulated credit.held.voucher =
          .ok (some next) := by
        unfold addDenomination
        rw [isValue, ok_bind, added]
      simp only [adds]
      exact induction signed accepted ofUnit isSum

/-- A payment with these vouchers has this batch only. -/
theorem batchOf_credits {batch : List (Text × Dict)}
    (signed : ∀ credit ∈ credits, credit.Signed P) :
    BatchOf (buildPicPayment (credits.map fun credit =>
        .obj credit.held.voucher)) batch ↔
      batch = credits.map PickedCredit.entry ∧ credits ≠ [] ∧
        (credits.map (·.fields.voucherId)).Nodup := by
  have ids : (credits.map PickedCredit.entry).map (·.1) =
      credits.map (·.fields.voucherId) := by
    rw [List.map_map]
    rfl
  have listed : (buildPicPayment (credits.map fun credit =>
      .obj credit.held.voucher)).get "vouchers" =
        .arr (credits.map fun credit => .obj credit.held.voucher) := rfl
  constructor
  · intro isBatch
    have sameItems := isBatch.listed
    rw [listed, Json.arr.injEq] at sameItems
    have same : batch = credits.map PickedCredit.entry := by
      have identified := isBatch.identified
      clear isBatch ids listed
      induction credits generalizing batch with
      | nil =>
          cases batch with
          | nil => rfl
          | cons entry batch => cases sameItems
      | cons credit others induction =>
          cases batch with
          | nil => cases sameItems
          | cons entry batch =>
              obtain ⟨isSigned, signed⟩ := List.forall_mem_cons.mp signed
              obtain ⟨hasId, identified⟩ := List.forall_mem_cons.mp identified
              rw [List.map_cons, List.map_cons, List.cons.injEq] at sameItems
              obtain ⟨sameVoucher, sameItems⟩ := sameItems
              rw [Json.obj.injEq] at sameVoucher
              have stated := isSigned.states.voucherId
              rw [sameVoucher, hasId, Json.str.injEq] at stated
              rw [List.map_cons, ← induction signed sameItems identified]
              unfold PickedCredit.entry
              rw [← stated, sameVoucher]
    subst same
    refine ⟨rfl, ?_, ids ▸ isBatch.distinct⟩
    rintro rfl
    exact isBatch.nonempty rfl
  · rintro ⟨rfl, nonempty, distinct⟩
    refine ⟨?_, ?_, ?_, ids ▸ distinct⟩
    · rw [listed, List.map_map]
      rfl
    · intro empty
      exact nonempty (List.map_eq_nil_iff.mp empty)
    · intro entry member
      obtain ⟨credit, inCredits, rfl⟩ := List.mem_map.mp member
      exact (signed credit inCredits).states.voucherId

/-- What decides on picked vouchers. -/
structure Spendable (P : Platform) (issuerPubkeys : List Text) (current : Int)
    (keys : Finset Text) (credits : List PickedCredit) : Prop where
  nonempty : credits ≠ []
  distinct : (credits.map (·.fields.voucherId)).Nodup
  acceptable : ∀ credit ∈ credits,
    Acceptable P issuerPubkeys current credit.fields
  unspent : ∀ credit ∈ credits, credit.fields.voucherId ∉ keys

/-- **Vouchers that were picked for the price** are never too few: each must be
acceptable and unspent, and no two may have one id. -/
theorem picked_redeemed_iff {held rest : List HeldVoucher}
    (sound : P.SchemaSound)
    (signed : ∀ credit ∈ credits, credit.Signed P)
    (selects : Wallet.select P.precision held terms.price terms.unit =
      .ok (credits.map (·.held), rest))
    (isCurrent : terms.now.toUtc P.localOffset = .ok current) :
    Redeemed (spentTable.run (redeem P terms (buildPicPayment
        (credits.map fun credit => .obj credit.held.voucher)) commit)
        keys).1 ↔
      Spendable P terms.issuerPubkeys current keys credits := by
  obtain ⟨target, isTarget, ofUnit, sum, isSum, enough⟩ :=
    Wallet.select_reaches selects
  have ofUnit : ∀ credit ∈ credits,
      Wallet.isOfUnit terms.unit credit.held = true := fun credit member =>
    ofUnit credit.held (List.mem_map_of_mem member)
  have accepted_iff : ∀ credit ∈ credits,
      (VoucherAccepted P terms credit.held.voucher ↔
        Acceptable P terms.issuerPubkeys current credit.fields) := by
    intro credit member
    obtain ⟨issuer, signs, issues⟩ := signed credit member
    exact issues.accepted_iff sound signs (ofUnit credit member) isCurrent
  generalize isPayment : buildPicPayment (credits.map fun credit =>
    .obj credit.held.voucher) = payment
  have batches := @batchOf_credits P credits
  rw [isPayment] at batches
  have isPic : (payment.get "scheme").isStr "pic" = true := by
    rw [← isPayment]
    rfl
  rw [(@run_redeem P terms payment commit keys).redeemed]
  have settled : settles P terms payment = picSettles P terms payment := by
    simp [settles, isPic]
  rw [settled, picSettles_iff]
  constructor
  · rintro ⟨⟨batch, isBatch, settles⟩, unspent⟩
    rw [isBatch.paymentKeys isPic] at unspent
    obtain ⟨rfl, nonempty, distinct⟩ := (batches signed).mp isBatch
    have accepted : BatchAccepted P terms (credits.map PickedCredit.entry) := by
      unfold batchSettles at settles
      cases totalled : batchTotal P terms (credits.map PickedCredit.entry) .zero with
      | none => simp [totalled] at settles
      | some total => exact batchTotal_some totalled
    refine ⟨nonempty, distinct, ?_, ?_⟩
    · intro credit member
      exact (accepted_iff credit member).mp
        (accepted _ (List.mem_map_of_mem member)).1
    · intro credit member
      exact unspent _ (List.mem_map_of_mem (List.mem_map_of_mem member))
  · intro spendable
    have isBatch := (batches signed).mpr
      ⟨rfl, spendable.nonempty, spendable.distinct⟩
    refine ⟨⟨_, isBatch, ?_⟩, ?_⟩
    · have totalled := batchTotal_credits signed (fun credit member =>
        (accepted_iff credit member).mpr (spendable.acceptable credit member))
        ofUnit isSum
      unfold batchSettles
      simp [totalled, isTarget, enough]
    · rw [isBatch.paymentKeys isPic, List.map_map]
      intro key member
      obtain ⟨credit, inCredits, rfl⟩ := List.mem_map.mp member
      exact spendable.unspent credit inCredits

/-- A price signed for a provider and a request. -/
structure SignedFor (P : Platform) (price unit nonce provider requestId : Text)
    (issued : Int) (payment inner : Dict) : Prop where
  scheme : payment.get "scheme" = .str "x402"
  payment : payment.get "payment" = .obj inner
  amount : inner.get "amount" = .str price
  unit : inner.get "unit" = .str unit
  nonce : inner.get "nonce" = .str nonce
  issuedAt : inner.get "issued_at" = .str (DateTime.isoText issued)
  provider : inner.get "provider_pubkey" = .str provider
  request : inner.get "request_id" = .str requestId
  verifies : verifyDocument P inner "payer_pubkey" = .ok true

theorem buildX402Payment_signedFor {payer : KeyPair}
    {price unit nonce provider requestId : Text} {moment : DateTime}
    {payment : Dict} (signs : P.SignsFor payer)
    (built : buildX402Payment P payer price unit nonce moment (.str provider)
      requestId = .ok payment) :
    ∃ issued inner, moment.toUtc P.localOffset = .ok issued ∧
      SignedFor P price unit nonce provider requestId issued payment inner := by
  obtain ⟨issuedAt, written, built⟩ := bind_eq_ok.mp built
  obtain ⟨issued, isIssued, written⟩ := bind_eq_ok.mp written
  cases written
  obtain ⟨inner, signed, built⟩ := bind_eq_ok.mp built
  cases built
  have verifies := @signDocument_verifies P payer _ inner signs signed
    "payer_pubkey"
  obtain ⟨message, rfl⟩ := signDocument_append (by
    change signatureField ∉ [text "payer_pubkey", text "amount", text "unit",
      text "nonce", text "issued_at", text "provider_pubkey", text "request_id"]
    decide) signed
  exact ⟨issued, _, isIssued, rfl, rfl, rfl, rfl, rfl, rfl, rfl, rfl,
    verifies rfl⟩

/-- The moment at which a payment says it was signed. -/
theorem issuedAt_isoText {inner : Dict} {utc : Int}
    (within : 0 ≤ utc ∧ utc < DateTime.calendarEnd)
    (stated : inner.get "issued_at" = .str (DateTime.isoText utc)) :
    issuedAt P inner = if DateTime.firstReadable ≤ utc then
      some (utc / 10 ^ 6 * 10 ^ 6) else none := by
  have isText : (Json.str (DateTime.isoText utc)).asStr =
      some (DateTime.isoText utc) := rfl
  unfold issuedAt
  rw [stated, isText, Option.bind_some]
  split_ifs with begun
  · have reads := DateTime.fromIsoFormat_isoText begun within.2
    have isInstant := (@readsInstant P _ within _ reads).2
    rw [reads, Option.bind_some, isInstant]
    rfl
  · rw [DateTime.fromIsoFormat_isoText_early (not_le.mp begun),
      Option.bind_none]

/-- What decides on a signed price. -/
structure Fresh (price nonce : Text) (issued current : Int)
    (keys : Finset Text) : Prop where
  readable : covers price price = true
  named : nonce ≠ []
  unspent : x402SpendKey nonce ∉ keys
  dated : DateTime.firstReadable ≤ issued
  recent : current - issued / 10 ^ 6 * 10 ^ 6 ≤ 300 * 10 ^ 6

/-- **A price that was signed** for a provider and a request is accepted there
for five minutes from the second in which it was signed. -/
theorem signed_redeemed_iff {payer : KeyPair} {nonce provider requestId : Text}
    {moment : DateTime} {payment : Dict} (signs : P.SignsFor payer)
    (built : buildX402Payment P payer terms.price terms.unit nonce moment
      (.str provider) requestId = .ok payment)
    (toProvider : terms.providerPubkey = some provider)
    (forRequest : terms.requestId = some requestId)
    (isCurrent : terms.now.toUtc P.localOffset = .ok current) :
    ∃ issued, moment.toUtc P.localOffset = .ok issued ∧
      (Redeemed (spentTable.run (redeem P terms payment commit) keys).1 ↔
        Fresh terms.price nonce issued current keys) := by
  obtain ⟨issued, inner, isIssued, made⟩ :=
    buildX402Payment_signedFor signs built
  refine ⟨issued, isIssued, ?_⟩
  have isX402 : (payment.get "scheme").isStr "x402" = true :=
    Json.isStr_iff.mpr made.scheme
  have within := toUtc_bounds isIssued
  have instant := @issuedAt_isoText P _ _ within made.issuedAt
  have sufficient_iff : Sufficient P inner terms.price terms.unit
      terms.providerPubkey terms.requestId ↔
        covers terms.price terms.price = true ∧ nonce ≠ [] := by
    constructor
    · rintro ⟨_, named, _, _, ⟨amount, stated, covered⟩, _⟩
      rw [made.amount] at stated
      cases stated
      refine ⟨covered, ?_⟩
      rintro rfl
      simp [innerNonce, made.nonce, Json.asStr] at named
    · rintro ⟨covered, named⟩
      refine ⟨Json.isStr_iff.mpr made.unit, ?_, ?_, ?_,
        ⟨terms.price, by rw [made.amount]; rfl, covered⟩, made.verifies⟩
      · simp [innerNonce, made.nonce, Json.asStr, named]
      · rw [toProvider]
        exact Json.isStr_iff.mpr made.provider
      · rw [forRequest]
        exact Json.isStr_iff.mpr made.request
  have age_iff : (∃ now issued', terms.now.toUtc P.localOffset = .ok now ∧
      issuedAt P inner = some issued' ∧
        secondsLe (now - issued') maxAgeSeconds = true) ↔
          DateTime.firstReadable ≤ issued ∧
            current - issued / 10 ^ 6 * 10 ^ 6 ≤ 300 * 10 ^ 6 := by
    have calendar : DateTime.calendarEnd < 2 ^ 59 := by decide
    have noSlack : secondsSlack 300 = 0 := by decide
    obtain ⟨_, currentMost⟩ := toUtc_bounds isCurrent
    have exactly := @secondsLe_iff (current - issued / 10 ^ 6 * 10 ^ 6) 300
      (by omega)
    rw [noSlack, Nat.cast_zero, Int.add_zero] at exactly
    have inSeconds : secondsLe (current - issued / 10 ^ 6 * 10 ^ 6)
        maxAgeSeconds = true ↔
          current - issued / 10 ^ 6 * 10 ^ 6 ≤ 300 * 10 ^ 6 := exactly
    rw [← inSeconds, isCurrent, instant]
    by_cases begun : DateTime.firstReadable ≤ issued
    · simp [begun]
    · simp [begun]
  have verified_iff : verifyX402Payment P payment terms.price terms.unit
      terms.now terms.providerPubkey terms.requestId = .ok true ↔
        (covers terms.price terms.price = true ∧ nonce ≠ []) ∧
          DateTime.firstReadable ≤ issued ∧
            current - issued / 10 ^ 6 * 10 ^ 6 ≤ 300 * 10 ^ 6 := by
    unfold verifyX402Payment
    rw [verifyX402Within_true, made.payment,
      ← sufficient_iff, ← age_iff, and_iff_right isX402]
    simp only [Json.obj.injEq, exists_eq_left', verifyX402InnerWithin_true]
  have named : (∃ key, x402Nonce payment = some key ∧
      x402SpendKey key ∉ keys) ↔ nonce ≠ [] ∧ x402SpendKey nonce ∉ keys := by
    unfold x402Nonce innerNonce
    simp [made.payment, made.nonce, Json.asDict, Json.asStr]
  rw [(@run_redeem P terms payment commit keys).redeemed,
    x402_pays_iff isX402, verified_iff, named]
  constructor
  · rintro ⟨⟨⟨readable, named⟩, dated, recent⟩, _, unspent⟩
    exact ⟨readable, named, unspent, dated, recent⟩
  · rintro ⟨readable, named, unspent, dated, recent⟩
    exact ⟨⟨⟨readable, named⟩, dated, recent⟩, named, unspent⟩

end SovereignInference.SipPic
