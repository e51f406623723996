import SovereignInference.SipPic.BatchValue
import SovereignInference.SipPic.SequentialRedemption
import SovereignInference.SipPic.ConcurrentRedemption

/-!
# The specification of a redemption

What makes a payment good, in terms of its vouchers and of the set of spent
keys, and that redeeming decides exactly this, commits exactly this, and
decides alike whether or not it commits.
-/

namespace SovereignInference.SipPic

open Python Effects SipProtocol

variable {P : Platform} {terms : Terms} {payment : Dict} {commit : Bool}
  {keys : Finset Text}

/-- The vouchers listed by a payment together with their ids. -/
structure BatchOf (payment : Dict) (batch : List (Text × Dict)) : Prop where
  listed : payment.get "vouchers" = .arr (batch.map fun entry => .obj entry.2)
  nonempty : batch ≠ []
  identified : ∀ entry ∈ batch, entry.2.get "voucher_id" = .str entry.1
  distinct : (batch.map (·.1)).Nodup

theorem readBatch_items {items : List Json} {seen : List Text}
    {batch : List (Text × Dict)}
    (read : readBatch items seen = .ok (some batch)) :
    items = batch.map (fun entry => .obj entry.2) ∧
      ∀ entry ∈ batch, entry.2.get "voucher_id" = .str entry.1 := by
  induction items generalizing seen batch with
  | nil =>
      cases read
      simp
  | cons item rest induction =>
      unfold readBatch at read
      cases isDict : item.asDict with
      | none => simp [isDict] at read
      | some voucher =>
          cases hasId : (voucher.get "voucher_id").asStr with
          | none => simp [isDict, hasId] at read
          | some id =>
              by_cases repeated : id ∈ seen
              · simp [isDict, hasId, repeated] at read
              · simp only [isDict, hasId, repeated, if_false] at read
                obtain ⟨found, tail, equality⟩ := bind_eq_ok.mp read
                cases found with
                | none => cases equality
                | some others =>
                    cases equality
                    obtain ⟨sameItems, identified⟩ := induction tail
                    constructor
                    · rw [Json.asDict_eq_some.mp isDict, sameItems]
                      rfl
                    · intro entry member
                      rcases List.mem_cons.mp member with rfl | later
                      · exact Json.asStr_eq_some.mp hasId
                      · exact identified entry later

private theorem readBatch_complete {batch : List (Text × Dict)}
    {seen : List Text}
    (identified : ∀ entry ∈ batch, entry.2.get "voucher_id" = .str entry.1)
    (distinct : (batch.map (·.1)).Nodup)
    (fresh : ∀ entry ∈ batch, entry.1 ∉ seen) :
    readBatch (batch.map fun entry => .obj entry.2) seen =
      .ok (some batch) := by
  induction batch generalizing seen with
  | nil => rfl
  | cons entry rest induction =>
      obtain ⟨notLater, distinct⟩ := List.nodup_cons.mp distinct
      have later : ∀ other ∈ rest, other.1 ∉ entry.1 :: seen := by
        intro other member
        rw [List.mem_cons, not_or]
        refine ⟨?_, fresh other (List.mem_cons_of_mem _ member)⟩
        intro same
        apply notLater
        show entry.1 ∈ _
        rw [← same]
        exact List.mem_map_of_mem member
      have restRead := induction
        (fun other member => identified other (List.mem_cons_of_mem _ member))
        distinct later
      have hasId : (entry.2.get "voucher_id").asStr = some entry.1 :=
        Json.asStr_eq_some.mpr (identified entry List.mem_cons_self)
      have notSeen := fresh entry List.mem_cons_self
      simp [readBatch, Json.asDict, hasId, notSeen, restRead]

/-- The batch of a payment is what reading its vouchers gives. -/
theorem batchOf_iff {batch : List (Text × Dict)} :
    BatchOf payment batch ↔
      ∃ first others, (payment.get "vouchers").asList = some (first :: others) ∧
        readBatch (first :: others) [] = .ok (some batch) := by
  constructor
  · intro isBatch
    cases batch with
    | nil => exact absurd rfl isBatch.nonempty
    | cons entry rest =>
        refine ⟨_, _, Json.asList_eq_some.mpr isBatch.listed, ?_⟩
        exact readBatch_complete isBatch.identified isBatch.distinct (by simp)
  · intro reads
    obtain ⟨first, others, items, read⟩ := reads
    obtain ⟨sameItems, identified⟩ := readBatch_items read
    obtain ⟨_, distinct, _⟩ := readBatch_ids read
    refine ⟨?_, ?_, identified, distinct⟩
    · rw [← sameItems]
      exact Json.asList_eq_some.mp items
    · rintro rfl
      exact readBatch_nonempty read

theorem BatchOf.paymentKeys {batch : List (Text × Dict)}
    (isBatch : BatchOf payment batch)
    (isPic : (payment.get "scheme").isStr "pic" = true) :
    paymentKeys payment = batch.map (·.1) := by
  obtain ⟨first, others, items, read⟩ := batchOf_iff.mp isBatch
  obtain ⟨sameIds, _, _⟩ := readBatch_ids read
  simp [SipPic.paymentKeys, isPic, items, ← sameIds]

theorem picSettles_iff :
    picSettles P terms payment = true ↔
      ∃ batch, BatchOf payment batch ∧ batchSettles P terms batch = true := by
  unfold picSettles
  constructor
  · intro settled
    split at settled
    · rename_i first others items
      split at settled
      · rename_i batch read
        exact ⟨batch, batchOf_iff.mpr ⟨first, others, items, read⟩, settled⟩
      · cases settled
    · cases settled
  · intro both
    obtain ⟨batch, isBatch, settled⟩ := both
    obtain ⟨first, others, items, read⟩ := batchOf_iff.mp isBatch
    simpa [items, read] using settled

/-- The vouchers are accepted and unspent, and cover the price. -/
structure BatchPays (P : Platform) (terms : Terms) (keys : Finset Text)
    (batch : List (Text × Dict)) : Prop where
  accepted : BatchAccepted P terms batch
  unspent : ∀ entry ∈ batch, entry.1 ∉ keys
  covered : PriceCovered terms.price
    (batch.map fun entry => faceValue entry.2).sum

theorem pic_pays_iff (sound : P.SchemaSound) (exact : P.precision = .exact)
    (isPic : (payment.get "scheme").isStr "pic" = true) :
    (settles P terms payment = true ∧
        ∀ key ∈ paymentKeys payment, key ∉ keys) ↔
      ∃ batch, BatchOf payment batch ∧ BatchPays P terms keys batch := by
  have settled : settles P terms payment = picSettles P terms payment := by
    simp [settles, isPic]
  rw [settled, picSettles_iff]
  constructor
  · intro pays
    obtain ⟨⟨batch, isBatch, settled⟩, unspent⟩ := pays
    obtain ⟨accepted, covered⟩ := (batchSettles_iff sound exact).mp settled
    rw [isBatch.paymentKeys isPic] at unspent
    refine ⟨batch, isBatch, accepted, ?_, covered⟩
    intro entry member
    exact unspent entry.1 (List.mem_map_of_mem member)
  · intro pays
    obtain ⟨batch, isBatch, pays⟩ := pays
    have settled := (batchSettles_iff sound exact).mpr
      ⟨pays.accepted, pays.covered⟩
    refine ⟨⟨batch, isBatch, settled⟩, ?_⟩
    rw [isBatch.paymentKeys isPic]
    intro key member
    obtain ⟨entry, inBatch, rfl⟩ := List.mem_map.mp member
    exact pays.unspent entry inBatch

theorem x402_pays_iff
    (isX402 : (payment.get "scheme").isStr "x402" = true) :
    (settles P terms payment = true ∧
        ∀ key ∈ paymentKeys payment, key ∉ keys) ↔
      verifyX402Payment P payment terms.price terms.unit terms.now
          terms.providerPubkey terms.requestId = .ok true ∧
        ∃ nonce, x402Nonce payment = some nonce ∧
          x402SpendKey nonce ∉ keys := by
  have notPic : (payment.get "scheme").isStr "pic" = false :=
    Json.isStr_other isX402 (by decide)
  have settled : settles P terms payment = x402Settles P terms payment := by
    simp [settles, notPic, isX402]
  rw [settled]
  unfold x402Settles
  cases hasNonce : x402Nonce payment with
  | none => simp
  | some nonce =>
      have sameKeys : paymentKeys payment = [x402SpendKey nonce] := by
        simp [paymentKeys, notPic, isX402, hasNonce]
      rw [sameKeys]
      cases verifyX402Payment P payment terms.price terms.unit terms.now
          terms.providerPubkey terms.requestId with
      | error error => simp
      | ok verified => simp

theorem consumeBatch_outcome {ids : List Text} (nodup : ids.Nodup)
    (fresh : ∀ id ∈ ids, id ∉ keys) (total : Text) :
    (spentTable.run (consumeBatch ids total commit) keys).1 =
      .ok ⟨true, "pic", total, ""⟩ := by
  unfold consumeBatch
  cases commit with
  | false => rfl
  | true => simp [Handler.run_bind, run_spendAll nodup fresh]

private theorem redeemBatch_outcome {batch : List (Text × Dict)}
    (nodup : (batch.map (·.1)).Nodup) :
    (spentTable.run (redeemBatch P batch terms.price terms.unit
        terms.issuerPubkeys terms.now commit) keys).1 =
      (spentTable.run (redeemBatch P batch terms.price terms.unit
        terms.issuerPubkeys terms.now false) keys).1 := by
  have validated := @run_validateBatch P terms keys batch .zero
  unfold redeemBatch
  rw [Prog.bind_eq, Handler.run_bind, Prog.bind_eq, Handler.run_bind]
  generalize ran : spentTable.run (validateBatch P terms.unit
    terms.issuerPubkeys terms.now batch .zero) keys = run
  rw [ran] at validated
  obtain ⟨outcome, after⟩ := run
  obtain ⟨sameKeys, computes⟩ := validated
  obtain rfl : after = keys := sameKeys
  cases outcome with
  | error error => rfl
  | ok decision =>
      cases decision with
      | error reason => rfl
      | ok total =>
          obtain ⟨_, fresh⟩ := (computes total).mp rfl
          have consumes := fun commit =>
            @consumeBatch_outcome commit after _ nodup fresh total.toText
          dsimp only
          cases Decimal.parse terms.price with
          | error error => rfl
          | ok price =>
              cases less : total.lt price with
              | error error => simp [less]
              | ok less' =>
                  cases less' with
                  | true => simp [less]
                  | false => simp [less, consumes]

theorem redeemPic_outcome :
    (spentTable.run (redeemPic P payment terms.price terms.unit
        terms.issuerPubkeys terms.now commit) keys).1 =
      (spentTable.run (redeemPic P payment terms.price terms.unit
        terms.issuerPubkeys terms.now false) keys).1 := by
  unfold redeemPic
  cases (payment.get "vouchers").asList with
  | none => rfl
  | some items =>
      cases items with
      | nil => rfl
      | cons first rest =>
          dsimp only
          cases read : readBatch (first :: rest) [] with
          | error error => rfl
          | ok batch =>
              cases batch with
              | none => rfl
              | some batch =>
                  obtain ⟨_, nodup, _⟩ := readBatch_ids read
                  exact redeemBatch_outcome nodup

private theorem redeemX402_outcome :
    (spentTable.run (redeemX402 P payment terms.price terms.unit terms.now
        commit terms.providerPubkey terms.requestId) keys).1 =
      (spentTable.run (redeemX402 P payment terms.price terms.unit terms.now
        false terms.providerPubkey terms.requestId) keys).1 := by
  unfold redeemX402
  cases x402Nonce payment with
  | none => rfl
  | some nonce =>
      dsimp only
      cases verifyX402Payment P payment terms.price terms.unit terms.now
          terms.providerPubkey terms.requestId with
      | error error => rfl
      | ok verified =>
          cases verified with
          | false => rfl
          | true =>
              by_cases spent : x402SpendKey nonce ∈ keys
              · simp [spent]
              · cases x402Amount P payment terms.price with
                | error error => cases commit <;> simp [spent]
                | ok amount => cases commit <;> simp [spent]

/-- Verifying and committing have the same outcome on the same guard. -/
theorem redeem_outcome :
    (spentTable.run (redeem P terms payment commit) keys).1 =
      (spentTable.run (redeem P terms payment false) keys).1 := by
  unfold redeem redeemPayment
  cases isPic : (payment.get "scheme").isStr "pic" with
  | true => simpa [isPic] using redeemPic_outcome
  | false =>
      cases isX402 : (payment.get "scheme").isStr "x402" with
      | true => simpa [isPic, isX402] using redeemX402_outcome
      | false => simp [isPic, isX402]

/-- **What a redemption decides and does.** -/
theorem redeem_specification (sound : P.SchemaSound)
    (exact : P.precision = .exact) {result : RedeemResult}
    {after : Finset Text}
    (returned : spentTable.run (redeem P terms payment commit) keys =
      (.ok result, after)) :
    ((payment.get "scheme").isStr "pic" = true →
      (result.ok = true ↔
        ∃ batch, BatchOf payment batch ∧ BatchPays P terms keys batch)) ∧
    ((payment.get "scheme").isStr "x402" = true →
      (result.ok = true ↔
        verifyX402Payment P payment terms.price terms.unit terms.now
            terms.providerPubkey terms.requestId = .ok true ∧
          ∃ nonce, x402Nonce payment = some nonce ∧
            x402SpendKey nonce ∉ keys)) ∧
    (∀ commit',
      (spentTable.run (redeem P terms payment commit') keys).1 =
        .ok result) ∧
    after = if commit && result.ok then keys ∪ (paymentKeys payment).toFinset
      else keys := by
  have post := @run_redeem P terms payment commit keys
  rw [returned] at post
  have decides := post.redeemed
  rw [redeemed_ok] at decides
  refine ⟨?_, ?_, ?_, ?_⟩
  · intro isPic
    rw [decides, pic_pays_iff sound exact isPic]
  · intro isX402
    rw [decides, x402_pays_iff isX402]
  · intro commit'
    have outcome := @redeem_outcome P terms payment commit keys
    rw [returned] at outcome
    rw [redeem_outcome, ← outcome]
  · cases ok : result.ok with
    | true =>
        have same : after = _ := post.committed ((redeemed_ok _).mpr ok)
        simpa using same
    | false =>
        have same : after = keys := post.unchanged (by simp [ok])
        simpa using same

def issuerKey : Text := "ed25519:7UkoxijRwsbq6QM4kFmVYSlZJzpcY_k2NsFGFKyHN9E"

def firstId : Text := "AAAAAAAAAAAAAAAAAAAAAAAAAAAAAAAAAAAAAAAAAAA"

def secondId : Text := "BBBBBBBBBBBBBBBBBBBBBBBBBBBBBBBBBBBBBBBBBBB"

def unsignedVoucher (id denomination : Text) : Dict :=
  [("voucher_version", .str "sip-ai.voucher.v1"), ("voucher_id", .str id),
    ("denomination", .str denomination), ("unit", .str "pic"),
    ("issuer_pubkey", .str issuerKey),
    ("issued_at", .str "2026-01-01T00:00:00Z"),
    ("expires_at", .str "2026-02-01T00:00:00Z")]

def firstSignature : Text :=
  "ed25519:LpbDPCmgzIPFEbco3F8oZ58H0_sWoLifSPKD_ZgnhdURFAXGiZYhviy2zZ4XwcQTVGOC4nddcQhUKmxMVPT2BA"

def secondSignature : Text :=
  "ed25519:8jdn7t9bvzvNnfr71J0khTVKbKpq-z7JF7EqhSy2HSlhJJl0U_jIJP59i0Jas-plxMj-kifsphTPMJjI-Ay3DA"

def voucherTable : SignatureTable where
  keys := []
  signatures :=
    [(issuerKey, unsignedVoucher firstId "2", firstSignature),
      (issuerKey, unsignedVoucher secondId "0.5", secondSignature)]

def firstVoucher : Dict :=
  (unsignedVoucher firstId "2").set "signature" (.str firstSignature)

def secondVoucher : Dict :=
  (unsignedVoucher secondId "0.5").set "signature" (.str secondSignature)

def batchPayment : Dict :=
  buildPicPayment [.obj firstVoucher, .obj secondVoucher]

def batchTerms : Terms where
  price := "1"
  unit := "pic"
  issuerPubkeys := [issuerKey]
  now := ⟨63902822460000000, some 0⟩
  providerPubkey := none
  requestId := none

theorem batchPayment_redeemed :
    spentTable.run
        (redeem voucherTable.platform batchTerms batchPayment true) ∅ =
      (.ok ⟨true, "pic", "2.5", ""⟩, {firstId, secondId}) := by
  decide +kernel

theorem redeem_specification_batch :
    ∃ batch, BatchOf batchPayment batch ∧
      BatchPays voucherTable.platform batchTerms ∅ batch := by
  have specification := redeem_specification
    voucherTable.platform_schemaSound rfl batchPayment_redeemed
  exact (specification.1 (by decide)).mp rfl

end SovereignInference.SipPic
