import SovereignInference.Effects.Frame
import SovereignInference.Python.RegexLanguage
import SovereignInference.SipPic.BlindSpending
import SovereignInference.SipPic.RedemptionSpec

/-!
# Redemptions that do not interfere

A redemption looks at the keys of its own credit only, so another one changes
its verdict only through a key they share.  Keys of different schemes differ,
and the key of a blind credit names its issuer; voucher ids and nonces are keys
without their issuer or payer.
-/

namespace SovereignInference.SipPic

open Python Effects SipProtocol

def opKey : SpentOp → Text
  | .isSpent key | .spend key | .unspend key => key

/-- The program reads and writes no other keys. -/
def OnlyKeys {α : Type} (keys : List Text)
    (program : Prog SpentSig PyExc α) : Prop :=
  program.Calls fun op => opKey op ∈ keys

section

variable {P : Platform} {terms : Terms} {payment : Dict} {commit : Bool}
  {keys : List Text} {key : Text}

theorem onlyKeys_isSpent (own : key ∈ keys) :
    OnlyKeys keys (isSpent key) :=
  ⟨own, fun answer => Prog.calls_ofExcept answer⟩

theorem onlyKeys_spend (own : key ∈ keys) : OnlyKeys keys (spend key) :=
  ⟨own, fun answer => Prog.calls_ofExcept answer⟩

theorem onlyKeys_unspend (own : key ∈ keys) : OnlyKeys keys (unspend key) :=
  ⟨own, fun answer => Prog.calls_ofExcept answer⟩

theorem onlyKeys_ofExcept {α : Type} (outcome : Except PyExc α) :
    OnlyKeys keys (Prog.ofExcept outcome) := Prog.calls_ofExcept outcome

theorem onlyKeys_validateBatch {batch : List (Text × Dict)}
    (own : ∀ entry ∈ batch, entry.1 ∈ keys) (total : Decimal) :
    OnlyKeys keys (validateBatch P terms.unit terms.issuerPubkeys terms.now
      batch total) := by
  induction batch generalizing total with
  | nil => exact Prog.calls_ret _
  | cons entry rest induction =>
      obtain ⟨first, others⟩ := List.forall_mem_cons.mp own
      unfold validateBatch
      refine Prog.Calls.bind (onlyKeys_ofExcept _) fun reason => ?_
      cases reason with
      | some reason => exact Prog.calls_ret _
      | none =>
          refine Prog.Calls.bind (onlyKeys_isSpent first) fun spent => ?_
          cases spent with
          | true => exact Prog.calls_ret _
          | false =>
              refine Prog.Calls.bind (onlyKeys_ofExcept _) fun sum => ?_
              cases sum with
              | none => exact Prog.calls_ret _
              | some sum => exact induction others sum

private theorem onlyKeys_unspendAll {ids : List Text} (own : ids ⊆ keys) :
    OnlyKeys keys (unspendAll ids) := by
  induction ids with
  | nil => exact Prog.calls_ret _
  | cons id rest induction =>
      exact Prog.Calls.bind (onlyKeys_unspend (own List.mem_cons_self))
        fun _ => induction (List.subset_of_cons_subset own)

private theorem onlyKeys_spendAll {ids spentIds : List Text} (own : ids ⊆ keys)
    (owned : spentIds ⊆ keys) : OnlyKeys keys (spendAll ids spentIds) := by
  induction ids generalizing spentIds with
  | nil => exact Prog.calls_ret _
  | cons id rest induction =>
      have mine : id ∈ keys := own List.mem_cons_self
      unfold spendAll
      refine Prog.Calls.bind (onlyKeys_spend mine) fun fresh => ?_
      cases fresh with
      | true =>
          exact induction (List.subset_of_cons_subset own)
            (List.append_subset.mpr ⟨owned, by simpa using mine⟩)
      | false =>
          exact Prog.Calls.bind (onlyKeys_unspendAll owned)
            fun _ => Prog.calls_ret _

private theorem onlyKeys_redeemBatch {batch : List (Text × Dict)}
    (own : ∀ entry ∈ batch, entry.1 ∈ keys) :
    OnlyKeys keys (redeemBatch P batch terms.price terms.unit
      terms.issuerPubkeys terms.now commit) := by
  have ids : batch.map (·.1) ⊆ keys := by
    intro id member
    obtain ⟨entry, inBatch, rfl⟩ := List.mem_map.mp member
    exact own entry inBatch
  unfold redeemBatch
  refine Prog.Calls.bind (onlyKeys_validateBatch own _) fun decision => ?_
  cases decision with
  | error reason => exact Prog.calls_ret _
  | ok total =>
      refine Prog.Calls.bind (onlyKeys_ofExcept _) fun price => ?_
      refine Prog.Calls.bind (onlyKeys_ofExcept _) fun less => ?_
      cases less with
      | true => exact Prog.calls_ret _
      | false =>
          cases commit with
          | false => exact Prog.calls_ret _
          | true =>
              refine Prog.Calls.bind (onlyKeys_spendAll ids
                (List.nil_subset keys)) fun spent => ?_
              cases spent <;> exact Prog.calls_ret _

theorem onlyKeys_redeemPic
    (isPic : (payment.get "scheme").isStr "pic" = true) :
    OnlyKeys (paymentKeys payment) (redeemPic P payment terms.price terms.unit
      terms.issuerPubkeys terms.now commit) := by
  unfold redeemPic
  cases items : (payment.get "vouchers").asList with
  | none => exact Prog.calls_ret _
  | some items' =>
      cases items' with
      | nil => exact Prog.calls_ret _
      | cons first others =>
          dsimp only
          cases read : readBatch (first :: others) [] with
          | error error => exact Prog.calls_raise _
          | ok batch =>
              cases batch with
              | none => exact Prog.calls_ret _
              | some batch =>
                  obtain ⟨sameIds, _, _⟩ := readBatch_ids read
                  have sameKeys : paymentKeys payment = batch.map (·.1) := by
                    simp [paymentKeys, isPic, items, ← sameIds]
                  rw [sameKeys]
                  exact onlyKeys_redeemBatch fun entry member =>
                    List.mem_map_of_mem member

private theorem onlyKeys_redeemX402
    (notPic : (payment.get "scheme").isStr "pic" = false)
    (isX402 : (payment.get "scheme").isStr "x402" = true) :
    OnlyKeys (paymentKeys payment) (redeemX402 P payment terms.price
      terms.unit terms.now commit terms.providerPubkey terms.requestId) := by
  unfold redeemX402
  cases hasNonce : x402Nonce payment with
  | none => exact Prog.calls_ret _
  | some nonce =>
      have own : x402SpendKey nonce ∈ paymentKeys payment := by
        simp [paymentKeys, notPic, isX402, hasNonce]
      have states : OnlyKeys (paymentKeys payment) (do
          let amount ← Prog.ofExcept (x402Amount P payment terms.price)
          return (⟨true, "x402", amount, ""⟩ : RedeemResult)) :=
        Prog.Calls.bind (onlyKeys_ofExcept _) fun _ => Prog.calls_ret _
      refine Prog.Calls.bind (onlyKeys_ofExcept _) fun verified => ?_
      cases verified with
      | false => exact Prog.calls_ret _
      | true =>
          refine Prog.Calls.bind (onlyKeys_isSpent own) fun spent => ?_
          cases spent with
          | true => exact Prog.calls_ret _
          | false =>
              cases commit with
              | false => exact states
              | true =>
                  refine Prog.Calls.bind (onlyKeys_spend own) fun fresh => ?_
                  cases fresh with
                  | false => exact Prog.calls_ret _
                  | true => exact states

theorem onlyKeys_redeem :
    OnlyKeys (paymentKeys payment) (redeem P terms payment commit) := by
  unfold redeem redeemPayment
  cases isPic : (payment.get "scheme").isStr "pic" with
  | true => simpa [isPic] using onlyKeys_redeemPic isPic
  | false =>
      cases isX402 : (payment.get "scheme").isStr "x402" with
      | true => simpa [isPic, isX402] using onlyKeys_redeemX402 isPic isX402
      | false =>
          simp only [isPic, isX402, Bool.false_eq_true, if_false]
          exact Prog.Calls.bind (onlyKeys_ofExcept _) fun _ =>
            Prog.calls_ret _

theorem onlyKeys_blind (call : BlindCall) :
    OnlyKeys [call.credit.spendKey] call.program := by
  by_cases acceptable : call.Acceptable
  · rw [call.program_acceptable acceptable]
    have own : call.credit.spendKey ∈ [call.credit.spendKey] :=
      List.mem_singleton_self _
    refine Prog.Calls.bind (onlyKeys_isSpent own) fun spent => ?_
    cases spent with
    | true => exact Prog.calls_ret _
    | false =>
        exact Prog.Calls.bind (onlyKeys_spend own) fun _ => Prog.calls_ret _
  · obtain ⟨outcome, _, ends⟩ := BlindCall.program_unacceptable acceptable
    rw [ends]
    exact onlyKeys_ofExcept outcome

end

/-- Tables with the same of these keys. -/
def SameOf (keys : List Text) (table other : Finset Text) : Prop :=
  ∀ key ∈ keys, key ∈ table ↔ key ∈ other

theorem spentTable_respects (keys : List Text) :
    spentTable.Respects (fun op => opKey op ∈ keys) (SameOf keys) := by
  intro op own table other same
  cases op with
  | isSpent key =>
      have sameKey : key ∈ table ↔ key ∈ other := same key own
      exact ⟨congrArg Except.ok (decide_eq_decide.mpr sameKey), same⟩
  | unspend key =>
      refine ⟨rfl, ?_⟩
      intro later member
      simp only [respond_unspend, Finset.mem_erase]
      exact and_congr_right fun _ => same later member
  | spend key =>
      have sameKey : key ∈ table ↔ key ∈ other := same key own
      by_cases spent : key ∈ table
      · rw [respond_spend_spent spent,
          respond_spend_spent (sameKey.mp spent)]
        exact ⟨rfl, same⟩
      · rw [respond_spend_fresh spent,
          respond_spend_fresh fun inOther => spent (sameKey.mpr inOther)]
        refine ⟨rfl, ?_⟩
        intro later member
        rw [Finset.mem_insert, Finset.mem_insert]
        exact or_congr_right (same later member)

/-- What can be redeemed: a payment, or a blind credit. -/
inductive Credit where
  | paid (terms : Terms) (payment : Dict)
  | blind (call : BlindCall)

def hasScheme (scheme : Text) (payment : Dict) : Prop :=
  (payment.get "scheme").isStr scheme = true

instance (scheme : Text) (payment : Dict) :
    Decidable (hasScheme scheme payment) :=
  inferInstanceAs (Decidable (_ = true))

def listedVouchers (payment : Dict) : List Json :=
  (payment.get "vouchers").asList.getD []

/-- The keys of the issuers of the vouchers. -/
def issuers (payment : Dict) : List Json :=
  (listedVouchers payment).map fun voucher =>
    (voucher.asDict.getD []).get "issuer_pubkey"

/-- The key of the payer. -/
def payer (payment : Dict) : Json :=
  ((payment.get "payment").asDict.getD []).get "payer_pubkey"

namespace Credit

/-- `redeem_payment` or `redeem_blind_credit`. -/
def program (P : Platform) (commit : Bool) :
    Credit → Prog SpentSig PyExc RedeemResult
  | .paid terms payment => redeem P terms payment commit
  | .blind call => call.program

/-- Every check passes that does not look at the spent set. -/
def Acceptable (P : Platform) : Credit → Prop
  | .paid terms payment => settles P terms payment = true
  | .blind call => call.Acceptable

/-- The keys that redeeming spends. -/
def spendKeys : Credit → List Text
  | .paid _ payment => paymentKeys payment
  | .blind call => [call.credit.spendKey]

/-- What redeeming answers. -/
def verdict (P : Platform) (commit : Bool) (credit : Credit)
    (table : Finset Text) : Except PyExc RedeemResult :=
  (spentTable.run (credit.program P commit) table).1

/-- The spent set after redeeming. -/
def redeemed (P : Platform) (credit : Credit) (table : Finset Text) :
    Finset Text :=
  (spentTable.run (credit.program P true) table).2

/-- The credits are of different schemes, issuers or payers. -/
def Different : Credit → Credit → Prop
  | .paid _ first, .paid _ second =>
      (hasScheme "pic" first → hasScheme "pic" second →
        ∀ issuer ∈ issuers first, ∀ other ∈ issuers second, issuer ≠ other) ∧
      (hasScheme "x402" first → hasScheme "x402" second →
        payer first ≠ payer second)
  | .blind first, .blind second => first.credit.issuer ≠ second.credit.issuer
  | _, _ => True

/-- Two signed payments with one nonce, or two batches with one voucher id. -/
def SharesId : Credit → Credit → Prop
  | .paid _ first, .paid _ second =>
      (hasScheme "pic" first ∧ hasScheme "pic" second ∧
        ∃ id, id ∈ (listedVouchers first).filterMap voucherId ∧
          id ∈ (listedVouchers second).filterMap voucherId) ∨
      (hasScheme "x402" first ∧ hasScheme "x402" second ∧
        x402Nonce first = x402Nonce second)
  | _, _ => False

variable {P : Platform} {credit : Credit} {table other : Finset Text}

private theorem onlyKeys_program (commit : Bool) :
    OnlyKeys credit.spendKeys (credit.program P commit) := by
  cases credit with
  | paid terms payment => exact onlyKeys_redeem
  | blind call => exact onlyKeys_blind call

/-- The verdict depends on the keys of the credit. -/
theorem verdict_congr {commit : Bool}
    (same : SameOf credit.spendKeys table other) :
    credit.verdict P commit table = credit.verdict P commit other :=
  (spentTable_respects credit.spendKeys).run (onlyKeys_program commit) same

/-- An acceptable credit is redeemed if its keys are unspent. -/
theorem verdict_iff (acceptable : credit.Acceptable P) (commit : Bool) :
    Redeemed (credit.verdict P commit table) ↔
      ∀ key ∈ credit.spendKeys, key ∉ table := by
  cases credit with
  | paid terms payment =>
      have post := @run_redeem P terms payment commit table
      exact post.redeemed.trans (and_iff_right acceptable)
  | blind call =>
      have accepted := call.accepted_iff table
      unfold Accepted at accepted
      unfold verdict program Redeemed
      rw [accepted]
      simp [spendKeys, show call.Acceptable from acceptable]

/-- Redeeming spends the keys of the credit, or nothing. -/
theorem redeemed_cases :
    credit.redeemed P table = table ∨
      credit.redeemed P table = table ∪ credit.spendKeys.toFinset := by
  cases credit with
  | paid terms payment =>
      have post := @run_redeem P terms payment true table
      by_cases accepted : Redeemed (spentTable.run
        (redeem P terms payment true) table).1
      · exact .inr (post.committed accepted)
      · exact .inl (post.unchanged accepted)
  | blind call =>
      have after := call.keys_after table
      by_cases acceptable : call.Acceptable
      · rw [if_pos acceptable] at after
        right
        refine after.trans ?_
        simp [spendKeys, Finset.union_singleton]
      · rw [if_neg acceptable] at after
        exact .inl after

theorem redeemed_fresh (acceptable : credit.Acceptable P)
    (fresh : ∀ key ∈ credit.spendKeys, key ∉ table) :
    credit.redeemed P table = table ∪ credit.spendKeys.toFinset := by
  cases credit with
  | paid terms payment =>
      have post := @run_redeem P terms payment true table
      exact post.committed (post.redeemed.mpr ⟨acceptable, fresh⟩)
  | blind call =>
      have isAcceptable : call.Acceptable := acceptable
      refine (call.keys_after table).trans ?_
      rw [if_pos isAcceptable]
      simp [spendKeys, Finset.union_singleton]

/-- What has no key in common is redeemed as before. -/
theorem verdict_redeemed {first second : Credit} {commit : Bool}
    (apart : ∀ key ∈ first.spendKeys, key ∉ second.spendKeys) :
    second.verdict P commit (first.redeemed P table) =
      second.verdict P commit table := by
  apply verdict_congr
  intro key own
  rcases @redeemed_cases P first table with same | spent
  · rw [same]
  · rw [spent, Finset.mem_union, List.mem_toFinset]
    exact or_iff_left fun other => apart key other own

/-- What has a key in common can no longer be redeemed. -/
theorem verdict_lost {first second : Credit} {key : Text}
    (acceptable : first.Acceptable P) (acceptable' : second.Acceptable P)
    (own : key ∈ first.spendKeys) (own' : key ∈ second.spendKeys)
    (commit : Bool) :
    second.verdict P commit (first.redeemed P ∅) ≠
      second.verdict P commit ∅ := by
  intro same
  have before : Redeemed (second.verdict P commit ∅) :=
    (verdict_iff acceptable' commit).mpr fun _ _ => Finset.notMem_empty _
  rw [← same] at before
  have stillFresh := (verdict_iff acceptable' commit).mp before key own'
  apply stillFresh
  rw [redeemed_fresh acceptable fun _ _ => Finset.notMem_empty _]
  exact Finset.mem_union_right _ (List.mem_toFinset.mpr own)

end Credit

variable {P : Platform} {terms : Terms} {payment : Dict}

/-- The id of an accepted voucher has no colon. -/
theorem voucherId_plain (sound : P.SchemaSound) {voucher : Dict} {id : Text}
    (accepted : VoucherAccepted P terms voucher)
    (identified : voucher.get "voucher_id" = .str id) : 0x3A ∉ id := by
  obtain ⟨result, verified, valid⟩ := accepted.verified
  have noErrors := ((verifySigned_valid verified).mp valid).1
  rw [sound] at noErrors
  obtain ⟨fields, same, required, properties⟩ := Schema.record_valid noErrors
  cases same
  obtain ⟨value, found⟩ := required "voucher_id" (by decide)
  have isId : value = .str id := by
    rw [← identified]
    simp [Dict.get, found]
  subst isId
  have typed := properties ("voucher_id",
    .string [.pattern Schemas.voucherIdRegex]) (by simp) _ found
  obtain ⟨_, isString, shape⟩ := Schema.string_valid typed
  cases isString
  have pattern : Schemas.voucherIdRegex.matchesText id = true :=
    shape _ List.mem_cons_self
  obtain ⟨front, ⟨inside, _⟩, ends⟩ :=
    (Regex.matchesText_iff _).mp pattern
  have notInside : 0x3A ∉ front := by
    intro member
    exact absurd (inside _ member) (by decide)
  rcases ends with rfl | rfl
  · exact notInside
  · rw [List.mem_append, not_or]
    exact ⟨notInside, by decide⟩

theorem paymentKeys_pic (isPic : hasScheme "pic" payment) :
    paymentKeys payment = (listedVouchers payment).filterMap voucherId :=
  if_pos isPic

theorem not_pic_of_x402 (isX402 : hasScheme "x402" payment) :
    ¬ hasScheme "pic" payment := by
  intro isPic
  have notPic := Json.isStr_other isX402 (t := "pic") (by decide)
  unfold hasScheme at isPic
  rw [notPic] at isPic
  cases isPic

theorem paymentKeys_x402 (isX402 : hasScheme "x402" payment) :
    paymentKeys payment = (x402Nonce payment).toList.map x402SpendKey := by
  have notPic := not_pic_of_x402 isX402
  unfold hasScheme at isX402 notPic
  unfold paymentKeys
  rw [if_neg notPic, if_pos isX402]

theorem pic_key_plain (sound : P.SchemaSound)
    (settled : settles P terms payment = true)
    (isPic : hasScheme "pic" payment) :
    ∀ key ∈ paymentKeys payment, 0x3A ∉ key := by
  have picSettled : picSettles P terms payment = true := by
    unfold settles at settled
    unfold hasScheme at isPic
    rw [if_pos isPic] at settled
    exact settled
  obtain ⟨batch, isBatch, settled⟩ := picSettles_iff.mp picSettled
  rw [isBatch.paymentKeys isPic]
  intro key member
  obtain ⟨entry, inBatch, rfl⟩ := List.mem_map.mp member
  unfold batchSettles at settled
  cases totalled : batchTotal P terms batch .zero with
  | none => simp [totalled] at settled
  | some sum =>
      exact voucherId_plain sound
        (batchTotal_some totalled entry inBatch).1
        (isBatch.identified entry inBatch)

theorem x402Nonce_of_settles (settled : settles P terms payment = true)
    (isX402 : hasScheme "x402" payment) :
    ∃ nonce, x402Nonce payment = some nonce := by
  obtain ⟨key, own⟩ := settles_paymentKeys settled
  rw [paymentKeys_x402 isX402] at own
  obtain ⟨nonce, member, _⟩ := List.mem_map.mp own
  exact ⟨nonce, Option.mem_toList.mp member⟩

theorem x402_key_tagged (isX402 : hasScheme "x402" payment) {key : Text}
    (own : key ∈ paymentKeys payment) :
    0x3A ∈ key ∧ key.head? = some 0x78 := by
  rw [paymentKeys_x402 isX402] at own
  obtain ⟨nonce, _, rfl⟩ := List.mem_map.mp own
  exact ⟨List.mem_append_left _ (by decide), rfl⟩

private theorem blind_key_tagged (call : BlindCall) :
    0x3A ∈ call.credit.spendKey ∧ call.credit.spendKey.head? = some 0x62 :=
  ⟨List.mem_append_right _ List.mem_cons_self, rfl⟩

/-- A settled payment and a blind credit have no key in common. -/
theorem paid_blind_apart (sound : P.SchemaSound)
    (settled : settles P terms payment = true) (call : BlindCall) :
    call.credit.spendKey ∉ paymentKeys payment := by
  intro own
  obtain ⟨colon, head⟩ := blind_key_tagged call
  rcases settles_scheme settled with isPic | isX402
  · exact pic_key_plain sound settled isPic _ own colon
  · obtain ⟨_, head'⟩ := x402_key_tagged isX402 own
    rw [head] at head'
    exact absurd head' (by decide)

namespace Credit

/-- Different credits have a key in common exactly if they share an id. -/
theorem sharesId_iff (sound : P.SchemaSound) {first second : Credit}
    (acceptable : first.Acceptable P) (acceptable' : second.Acceptable P)
    (different : first.Different second) :
    (∃ key ∈ first.spendKeys, key ∈ second.spendKeys) ↔
      first.SharesId second := by
  cases first with
  | blind call =>
      cases second with
      | paid terms payment =>
          refine iff_of_false ?_ id
          rintro ⟨key, own, own'⟩
          obtain rfl := List.mem_singleton.mp own
          exact paid_blind_apart sound acceptable' call own'
      | blind other =>
          refine iff_of_false ?_ id
          rintro ⟨key, own, own'⟩
          have same := (List.mem_singleton.mp own).symm.trans
            (List.mem_singleton.mp own')
          exact different
            (BlindCall.spendKey_injective acceptable acceptable' same).1
  | paid terms payment =>
      cases second with
      | blind call =>
          refine iff_of_false ?_ id
          rintro ⟨key, own, own'⟩
          obtain rfl := List.mem_singleton.mp own'
          exact paid_blind_apart sound acceptable call own
      | paid terms' other =>
          rcases settles_scheme acceptable with isPic | isX402
          · have notX402 : ¬ hasScheme "x402" payment := fun isX402 =>
              not_pic_of_x402 isX402 isPic
            rcases settles_scheme acceptable' with isPic' | isX402'
            · unfold spendKeys SharesId
              dsimp only
              rw [paymentKeys_pic isPic, paymentKeys_pic isPic']
              constructor
              · exact fun shared => .inl ⟨isPic, isPic', shared⟩
              · rintro (⟨_, _, shared⟩ | ⟨isX402, _⟩)
                · exact shared
                · exact absurd isX402 notX402
            · refine iff_of_false ?_ ?_
              · rintro ⟨key, own, own'⟩
                exact pic_key_plain sound acceptable isPic key own
                  (x402_key_tagged isX402' own').1
              · rintro (⟨_, isPic', _⟩ | ⟨isX402, _⟩)
                · exact not_pic_of_x402 isX402' isPic'
                · exact notX402 isX402
          · have notPic := not_pic_of_x402 isX402
            rcases settles_scheme acceptable' with isPic' | isX402'
            · refine iff_of_false ?_ ?_
              · rintro ⟨key, own, own'⟩
                exact pic_key_plain sound acceptable' isPic' key own'
                  (x402_key_tagged isX402 own).1
              · rintro (⟨isPic, _⟩ | ⟨_, isX402', _⟩)
                · exact notPic isPic
                · exact not_pic_of_x402 isX402' isPic'
            · obtain ⟨nonce, hasNonce⟩ := x402Nonce_of_settles acceptable isX402
              obtain ⟨nonce', hasNonce'⟩ :=
                x402Nonce_of_settles acceptable' isX402'
              unfold spendKeys SharesId
              dsimp only
              rw [paymentKeys_x402 isX402, paymentKeys_x402 isX402',
                hasNonce, hasNonce']
              constructor
              · rintro ⟨key, own, own'⟩
                have same := (List.mem_singleton.mp own).symm.trans
                  (List.mem_singleton.mp own')
                unfold x402SpendKey at same
                rw [List.append_cancel_left same]
                exact .inr ⟨isX402, isX402', rfl⟩
              · rintro (⟨isPic, _⟩ | ⟨_, _, same⟩)
                · exact absurd isPic notPic
                · cases same
                  exact ⟨_, List.mem_singleton_self _,
                    List.mem_singleton_self _⟩

/-- **Redemptions of different credits.**  Redeeming one never changes the
verdict on the other, and they have different keys, exactly if they do not
share an id. -/
theorem independent_iff (sound : P.SchemaSound) {first second : Credit}
    (acceptable : first.Acceptable P) (acceptable' : second.Acceptable P)
    (different : first.Different second) :
    ((∀ commit table, second.verdict P commit (first.redeemed P table) =
        second.verdict P commit table) ↔ ¬ first.SharesId second) ∧
    ((∀ key ∈ first.spendKeys, key ∉ second.spendKeys) ↔
      ¬ first.SharesId second) := by
  have shares := sharesId_iff sound acceptable acceptable' different
  have apart : (∀ key ∈ first.spendKeys, key ∉ second.spendKeys) ↔
      ¬ first.SharesId second := by
    rw [← shares]
    push Not
    exact Iff.rfl
  refine ⟨?_, apart⟩
  constructor
  · intro unchanged sharesId
    obtain ⟨key, own, own'⟩ := shares.mpr sharesId
    exact verdict_lost acceptable acceptable' own own' true (unchanged true ∅)
  · intro notShared commit table
    exact verdict_redeemed (apart.mpr notShared)

end Credit

def otherPayerKey : Text := "ed25519:6kpsY-KcUgq-9VB7Ey7F-ZVHdq6-vnuSQh7qaRRG0iw"

def otherAssertion (nonce : Text) : Dict :=
  [("payer_pubkey", .str otherPayerKey), ("amount", .str "1"),
    ("unit", .str "pic"), ("nonce", .str nonce),
    ("issued_at", .str "2026-01-01T00:00:00Z")]

/-- The other payer's signatures, with the nonce of the first payer and with
one of its own. -/
def otherSignature (own : Bool) : Text :=
  if own then
    "ed25519:byqH1RjywqDc2K8dCeBktVfIu4TvnK5aZfuDZ2g7QgEvEVPjr70bY-svYFv1Cxf7YIIVVvpy1sajBsmbuWBTBw"
  else
    "ed25519:XJrDit44SQqAWnlzvv9WfxAQAK0DBlreO7lTV1GoDaXXUHLVXMcca7ia5Wc-TpDqt5Z1-ws__pUZHhtNUesiBw"

def payersTable : SignatureTable where
  keys := []
  signatures :=
    [(payerKey, signedAssertion, assertionSignature),
      (otherPayerKey, otherAssertion "n1", otherSignature false),
      (otherPayerKey, otherAssertion "n2", otherSignature true)]

def firstPayer : Credit := .paid assertionTerms assertion

def secondPayer (nonce : Text) (own : Bool) : Credit :=
  .paid assertionTerms
    [("scheme", .str "x402"), ("payment", .obj ((otherAssertion nonce).set
      "signature" (.str (otherSignature own))))]

theorem payers_different (nonce : Text) (own : Bool) :
    firstPayer.Different (secondPayer nonce own) := by
  have keys : payerKey ≠ otherPayerKey := by decide
  refine ⟨?_, fun _ _ same => keys (Json.str.inj same)⟩
  intro isPic
  exact absurd isPic (by decide)

/-- With a nonce of its own the second payment is redeemed as before. -/
theorem independent_iff_own_nonce :
    (secondPayer "n2" true).verdict payersTable.platform true
        (firstPayer.redeemed payersTable.platform ∅) =
      (secondPayer "n2" true).verdict payersTable.platform true ∅ := by
  have acceptable : firstPayer.Acceptable payersTable.platform ∧
      (secondPayer "n2" true).Acceptable payersTable.platform := by
    constructor
    · show settles _ _ _ = true
      decide +kernel
    · show settles _ _ _ = true
      decide +kernel
  apply (Credit.independent_iff payersTable.platform_schemaSound acceptable.1
    acceptable.2 (payers_different "n2" true)).1.mpr
  rintro (⟨isPic, _⟩ | ⟨_, _, same⟩)
  · exact absurd isPic (by decide)
  · exact absurd same (by decide)

/-- A payment with the nonce of another payer's is redeemed, but not after that
one. -/
theorem nonce_of_another_payer :
    firstPayer.Different (secondPayer "n1" false) ∧
      (secondPayer "n1" false).verdict payersTable.platform true ∅ =
        .ok ⟨true, "x402", "1", ""⟩ ∧
      firstPayer.verdict payersTable.platform true ∅ =
        .ok ⟨true, "x402", "1", ""⟩ ∧
      (secondPayer "n1" false).verdict payersTable.platform true
          (firstPayer.redeemed payersTable.platform ∅) =
        .ok (refused "x402" "0" "double_spend") := by
  refine ⟨payers_different "n1" false, ?_, ?_, ?_⟩
  · decide +kernel
  · decide +kernel
  · decide +kernel

end SovereignInference.SipPic
