import SovereignInference.SipPic.Payment

/-!
# When a payment settles

Whether a payment is acceptable does not depend on the guard: it settles if its
own checks pass, and then it is redeemed if its keys are unspent.  Here are the
checks, the keys, and what redeeming does to any guard that the keys of a
program can be read off from.
-/

namespace SovereignInference.SipPic

open Python Effects SipProtocol

/-- The id of a voucher, if it has one. -/
def voucherId (voucher : Json) : Option Text :=
  voucher.asDict.bind fun voucher => (voucher.get "voucher_id").asStr

/-- The keys that committing a payment spends. -/
def paymentKeys (payment : Dict) : List Text :=
  if (payment.get "scheme").isStr "pic" then
    ((payment.get "vouchers").asList.getD []).filterMap voucherId
  else if (payment.get "scheme").isStr "x402" then
    (x402Nonce payment).toList.map x402SpendKey
  else []

/-- What a payment is redeemed against. -/
structure Terms where
  price : Text
  unit : Text
  issuerPubkeys : List Text
  now : DateTime
  providerPubkey : Option Text
  requestId : Option Text

section

variable (P : Platform)

/-- The sum of a batch whose vouchers are all valid. -/
def batchTotal (terms : Terms) : List (Text × Dict) → Decimal → Option Decimal
  | [], total => some total
  | (_, voucher) :: rest, total =>
      match validateVoucher P voucher terms.unit terms.issuerPubkeys
          terms.now with
      | .ok none =>
          match addDenomination P total voucher with
          | .ok (some total) => batchTotal terms rest total
          | _ => none
      | _ => none

/-- The batch is valid and covers the price. -/
def batchSettles (terms : Terms) (batch : List (Text × Dict)) : Bool :=
  match batchTotal P terms batch .zero, Decimal.parse terms.price with
  | some total, .ok price =>
      match total.lt price with
      | .ok less => !less
      | .error _ => false
  | _, _ => false

def picSettles (terms : Terms) (payment : Dict) : Bool :=
  match (payment.get "vouchers").asList with
  | some (first :: others) =>
      match readBatch (first :: others) [] with
      | .ok (some batch) => batchSettles P terms batch
      | _ => false
  | _ => false

def x402Settles (terms : Terms) (payment : Dict) : Bool :=
  (x402Nonce payment).isSome &&
    match verifyX402Payment P payment terms.price terms.unit terms.now
        terms.providerPubkey terms.requestId with
    | .ok verified => verified
    | .error _ => false

/-- Every check passes that does not look at the guard. -/
def settles (terms : Terms) (payment : Dict) : Bool :=
  if (payment.get "scheme").isStr "pic" then picSettles P terms payment
  else if (payment.get "scheme").isStr "x402" then
    x402Settles P terms payment
  else false

/-- `redeem_payment` on these terms. -/
def redeem (terms : Terms) (payment : Dict) (commit : Bool) :
    Prog SpentSig PyExc RedeemResult :=
  redeemPayment P payment terms.price terms.unit terms.issuerPubkeys terms.now
    commit terms.providerPubkey terms.requestId

end

def Redeemed (outcome : Except PyExc RedeemResult) : Prop :=
  ∃ result, outcome = .ok result ∧ result.ok = true

@[simp] theorem not_redeemed_error (error : PyExc) :
    ¬ Redeemed (.error error) := by
  intro redeemed
  obtain ⟨result, equality, _⟩ := redeemed
  cases equality

@[simp] theorem redeemed_ok (result : RedeemResult) :
    Redeemed (.ok result) ↔ result.ok = true := by
  simp [Redeemed]

theorem readBatch_ids {items : List Json} {seen : List Text}
    {batch : List (Text × Dict)}
    (read : readBatch items seen = .ok (some batch)) :
    items.filterMap voucherId = batch.map (·.1) ∧
      (batch.map (·.1)).Nodup ∧ ∀ id ∈ batch.map (·.1), id ∉ seen := by
  induction items generalizing seen batch with
  | nil =>
      cases read
      simp
  | cons item rest induction =>
      unfold readBatch at read
      cases isDict : item.asDict with
      | none => simp [isDict] at read
      | some voucher =>
          cases hasId : (voucher.get "voucher_id").asStr with
          | none => simp [isDict, hasId] at read
          | some id =>
              by_cases repeated : id ∈ seen
              · simp [isDict, hasId, repeated] at read
              · simp only [isDict, hasId, repeated, if_false] at read
                obtain ⟨found, tail, equality⟩ := bind_eq_ok.mp read
                cases found with
                | none => cases equality
                | some others =>
                    cases equality
                    obtain ⟨sameIds, nodup, fresh⟩ := induction tail
                    refine ⟨?_, ?_, ?_⟩
                    · simp [voucherId, isDict, hasId, sameIds]
                    · refine List.nodup_cons.mpr ⟨?_, nodup⟩
                      intro later
                      exact fresh id later List.mem_cons_self
                    · intro other member
                      rcases List.mem_cons.mp member with rfl | later
                      · exact repeated
                      · intro inSeen
                        exact fresh other later
                          (List.mem_cons_of_mem _ inSeen)

theorem readBatch_nonempty {first : Json} {others : List Json} :
    readBatch (first :: others) [] ≠ .ok (some []) := by
  unfold readBatch
  split
  · simp
  · split
    · simp
    · cases readBatch others _ with
      | error error => simp
      | ok batch => cases batch <;> simp

theorem settles_scheme {P : Platform} {terms : Terms} {payment : Dict}
    (settled : settles P terms payment = true) :
    (payment.get "scheme").isStr "pic" = true ∨
      (payment.get "scheme").isStr "x402" = true := by
  unfold settles at settled
  split_ifs at settled with isPic isX402
  · exact .inl isPic
  · exact .inr isX402

/-- A payment that settles has a key to spend. -/
theorem settles_paymentKeys {P : Platform} {terms : Terms} {payment : Dict}
    (settled : settles P terms payment = true) :
    ∃ key, key ∈ paymentKeys payment := by
  unfold settles at settled
  split_ifs at settled with isPic isX402
  · unfold picSettles at settled
    split at settled
    · rename_i first others items
      split at settled
      · rename_i batch read
        obtain ⟨sameIds, _, _⟩ := readBatch_ids read
        have sameKeys : paymentKeys payment = batch.map (·.1) := by
          simp [paymentKeys, isPic, items, ← sameIds]
        rw [sameKeys]
        cases batch with
        | nil => exact absurd read readBatch_nonempty
        | cons entry rest => exact ⟨entry.1, List.mem_cons_self⟩
      · cases settled
    · cases settled
  · unfold x402Settles at settled
    cases hasNonce : x402Nonce payment with
    | none => simp [hasNonce] at settled
    | some nonce =>
        exact ⟨x402SpendKey nonce, by simp [paymentKeys, isPic, isX402, hasNonce]⟩

/-- A guard whose statements do not raise, seen by one program: `held` are the
keys the program has spent and not given back, `others` is whatever the guard
does not touch.  As long as that is `calm`, the keys in `takes` may be spent and
the held ones given back. -/
structure KeyWorld {S O : Type} (world : World SpentSig S)
    (held : S → Set Text) (others : S → O) (calm : O)
    (takes : Set Text) : Prop where
  lookup : ∀ state key, world.allowed state (.isSpent key)
  take : ∀ state key, others state = calm → key ∈ takes →
    world.allowed state (.spend key)
  giveBack : ∀ state key, others state = calm → key ∈ held state →
    world.allowed state (.unspend key)
  lookedUp : ∀ state key answer after,
    world.step state (.isSpent key) answer after →
      (∃ spent, answer = .ok spent) ∧ held after = held state
  taken : ∀ state key answer after,
    world.step state (.spend key) answer after →
      ∃ fresh, answer = .ok fresh ∧
        held after = if fresh then insert key (held state) else held state
  givenBack : ∀ state key answer after,
    world.step state (.unspend key) answer after →
      answer = .ok () ∧ held after = held state \ {key}
  untouched : ∀ state op answer after,
    world.step state op answer after → others after = others state

namespace KeyWorld

variable {S O : Type} {world : World SpentSig S} {held : S → Set Text}
  {others : S → O} {calm : O} {takes : Set Text} {state : S} {key : Text}

theorem wp_isSpent (keys : KeyWorld world held others calm takes)
    {post : Except PyExc Bool → S → Prop}
    (next : ∀ spent after, held after = held state →
      others after = others state → post (.ok spent) after) :
    (isSpent key).wp world post state := by
  refine ⟨keys.lookup state key, ?_⟩
  intro answer after stepped
  obtain ⟨⟨spent, rfl⟩, sameHeld⟩ := keys.lookedUp _ _ _ _ stepped
  exact next spent after sameHeld (keys.untouched _ _ _ _ stepped)

theorem wp_spend (keys : KeyWorld world held others calm takes)
    {post : Except PyExc Bool → S → Prop} (quiet : others state = calm)
    (mine : key ∈ takes)
    (next : ∀ fresh after,
      held after = (if fresh then insert key (held state) else held state) →
      others after = others state → post (.ok fresh) after) :
    (spend key).wp world post state := by
  refine ⟨keys.take state key quiet mine, ?_⟩
  intro answer after stepped
  obtain ⟨fresh, rfl, nowHeld⟩ := keys.taken _ _ _ _ stepped
  exact next fresh after nowHeld (keys.untouched _ _ _ _ stepped)

private theorem wp_unspend (keys : KeyWorld world held others calm takes)
    {post : Except PyExc Unit → S → Prop} (quiet : others state = calm)
    (own : key ∈ held state)
    (next : ∀ after, held after = held state \ {key} →
      others after = others state → post (.ok ()) after) :
    (unspend key).wp world post state := by
  refine ⟨keys.giveBack state key quiet own, ?_⟩
  intro answer after stepped
  obtain ⟨rfl, nowHeld⟩ := keys.givenBack _ _ _ _ stepped
  exact next after nowHeld (keys.untouched _ _ _ _ stepped)

private theorem wp_unspendAll (keys : KeyWorld world held others calm takes)
    {ids : List Text} (quiet : others state = calm)
    (own : ∀ id ∈ ids, id ∈ held state) (nodup : ids.Nodup)
    {post : Except PyExc Unit → S → Prop}
    (next : ∀ after, held after = held state \ {id | id ∈ ids} →
      others after = others state → post (.ok ()) after) :
    (unspendAll ids).wp world post state := by
  induction ids generalizing state with
  | nil => exact next state (by simp) rfl
  | cons id rest induction =>
      obtain ⟨notLater, nodup⟩ := List.nodup_cons.mp nodup
      unfold unspendAll
      rw [Prog.bind_eq, Prog.wp_bind]
      apply keys.wp_unspend quiet (own id List.mem_cons_self)
      intro middle middleHeld middleOthers
      apply induction (middleOthers.trans quiet) ?_ nodup
      · intro after afterHeld afterOthers
        apply next after
        · rw [afterHeld, middleHeld]
          ext other
          simp [not_or, and_assoc]
        · rw [afterOthers, middleOthers]
      · intro other member
        rw [middleHeld]
        refine ⟨own other (List.mem_cons_of_mem _ member), ?_⟩
        intro same
        exact notLater (same ▸ member)

/-- Spending a list of keys holds all of them or none. -/
theorem wp_spendAll (keys : KeyWorld world held others calm takes)
    {ids spentIds : List Text} (quiet : others state = calm)
    (mine : ∀ id ∈ ids, id ∈ takes) (nodup : (spentIds ++ ids).Nodup)
    (heldIds : held state = {id | id ∈ spentIds}) :
    (spendAll ids spentIds).wp world
      (fun outcome after => others after = others state ∧
        ((outcome = .ok true ∧ held after = {id | id ∈ spentIds ++ ids}) ∨
          (outcome = .ok false ∧ held after = ∅))) state := by
  induction ids generalizing state spentIds with
  | nil =>
      refine ⟨rfl, .inl ⟨rfl, ?_⟩⟩
      rw [heldIds, List.append_nil]
  | cons id rest induction =>
      unfold spendAll
      rw [Prog.bind_eq, Prog.wp_bind]
      apply keys.wp_spend quiet (mine id List.mem_cons_self)
      intro fresh middle middleHeld middleOthers
      have stillQuiet := middleOthers.trans quiet
      have regrouped : spentIds ++ id :: rest = (spentIds ++ [id]) ++ rest := by
        simp
      cases fresh with
      | true =>
          rw [regrouped] at nodup ⊢
          have nowHeld : held middle = {other | other ∈ spentIds ++ [id]} := by
            rw [middleHeld, heldIds]
            ext other
            simp [or_comm]
          have mineLater : ∀ other ∈ rest, other ∈ takes := fun other member =>
            mine other (List.mem_cons_of_mem _ member)
          apply Prog.wp_mono _ _
            (induction stillQuiet mineLater nodup nowHeld)
          intro outcome after holds
          rw [← middleOthers]
          exact holds
      | false =>
          have sameHeld : held middle = {other | other ∈ spentIds} :=
            middleHeld.trans heldIds
          show ((unspendAll spentIds).bind fun _ => .ret false).wp _ _ _
          rw [Prog.wp_bind]
          apply keys.wp_unspendAll stillQuiet
          · intro other member
            rw [sameHeld]
            exact member
          · exact nodup.of_append_left
          · intro after afterHeld afterOthers
            refine ⟨afterOthers.trans middleOthers, .inr ⟨rfl, ?_⟩⟩
            rw [afterHeld, sameHeld, Set.sdiff_self]

/-- Validation leaves the guard alone and computes the total. -/
theorem wp_validateBatch (keys : KeyWorld world held others calm takes) {P : Platform}
    {terms : Terms} {batch : List (Text × Dict)} {total : Decimal} :
    (validateBatch P terms.unit terms.issuerPubkeys terms.now batch
        total).wp world
      (fun outcome after => others after = others state ∧
        held after = held state ∧
        ∀ sum, outcome = .ok (.ok sum) →
          batchTotal P terms batch total = some sum) state := by
  induction batch generalizing state total with
  | nil =>
      refine ⟨rfl, rfl, ?_⟩
      intro sum equality
      cases equality
      rfl
  | cons entry rest induction =>
      obtain ⟨id, voucher⟩ := entry
      unfold validateBatch batchTotal
      rw [Prog.bind_eq, Prog.wp_bind, Prog.wp_ofExcept]
      cases validated : validateVoucher P voucher terms.unit
          terms.issuerPubkeys terms.now with
      | error error => exact ⟨rfl, rfl, by simp⟩
      | ok reason =>
          cases reason with
          | some reason => exact ⟨rfl, rfl, by simp⟩
          | none =>
              show Prog.wp world _ _ _
              rw [Prog.bind_eq, Prog.wp_bind]
              apply keys.wp_isSpent
              intro spent middle middleHeld middleOthers
              cases spent with
              | true => exact ⟨middleOthers, middleHeld, by simp⟩
              | false =>
                  show Prog.wp world _ _ _
                  simp only [Bool.false_eq_true, if_false, Prog.bind_eq,
                    Prog.wp_bind, Prog.wp_ofExcept]
                  cases added : addDenomination P total voucher with
                  | error error =>
                      exact ⟨middleOthers, middleHeld, by simp⟩
                  | ok sum =>
                      cases sum with
                      | none => exact ⟨middleOthers, middleHeld, by simp⟩
                      | some sum =>
                          apply Prog.wp_mono _ _ induction
                          intro outcome after holds
                          rw [← middleOthers, ← middleHeld]
                          exact holds

end KeyWorld

/-- What a redemption guarantees that starts without keys: it holds the keys
of the payment if it committed, and nothing if it was refused or raised. -/
structure RedeemPost {S O : Type} (P : Platform) (terms : Terms)
    (payment : Dict) (commit : Bool) (held : S → Set Text) (others : S → O)
    (state : S) (outcome : Except PyExc RedeemResult) (after : S) : Prop where
  others : others after = others state
  settled : Redeemed outcome → settles P terms payment
  keys : Redeemed outcome →
    held after = if commit then {key | key ∈ paymentKeys payment} else ∅
  nothing : ¬ Redeemed outcome → held after = ∅

section

variable {S O : Type} {world : World SpentSig S} {held : S → Set Text}
  {others : S → O} {calm : O} {takes : Set Text} {state after : S}
  {P : Platform} {terms : Terms} {payment : Dict} {commit : Bool}

theorem RedeemPost.refused {outcome : Except PyExc RedeemResult}
    (sameOthers : others after = others state) (free : held after = ∅)
    (notRedeemed : ¬ Redeemed outcome) :
    RedeemPost P terms payment commit held others state outcome after :=
  ⟨sameOthers, fun redeemed => absurd redeemed notRedeemed,
    fun redeemed => absurd redeemed notRedeemed, fun _ => free⟩

theorem not_redeemed_refused (scheme total reason : Text) :
    ¬ Redeemed (.ok (refused scheme total reason)) := by
  simp [refused]

private theorem KeyWorld.wp_consumeBatch
    (keys : KeyWorld world held others calm takes)
    (quiet : others state = calm) (free : held state = ∅) {ids : List Text}
    (mine : ∀ id ∈ ids, id ∈ takes) (nodup : ids.Nodup) (total : Text) :
    (consumeBatch ids total commit).wp world
      (fun outcome after => others after = others state ∧
        (Redeemed outcome → held after = if commit then {id | id ∈ ids} else ∅) ∧
        (¬ Redeemed outcome → held after = ∅)) state := by
  unfold consumeBatch
  cases commit with
  | false => exact ⟨rfl, fun _ => by simpa using free, fun _ => free⟩
  | true =>
      have start : held state = {id | id ∈ ([] : List Text)} := by
        simp [free]
      simp only [Bool.not_true, Bool.false_eq_true, if_false, if_true,
        Prog.bind_eq, Prog.wp_bind]
      apply Prog.wp_mono _ _ 
        (keys.wp_spendAll quiet mine (by simpa using nodup) start)
      intro outcome middle holds
      obtain ⟨sameOthers, ⟨rfl, nowHeld⟩ | ⟨rfl, nothing⟩⟩ := holds
      · exact ⟨sameOthers, fun _ => nowHeld,
          fun refused => absurd ((redeemed_ok _).mpr rfl) refused⟩
      · exact ⟨sameOthers,
          fun redeemed => absurd redeemed (not_redeemed_refused _ _ _),
          fun _ => nothing⟩

private theorem KeyWorld.wp_redeemBatch
    (keys : KeyWorld world held others calm takes)
    (quiet : others state = calm) (free : held state = ∅)
    {batch : List (Text × Dict)}
    (mine : batchSettles P terms batch = true →
      ∀ id ∈ batch.map (·.1), id ∈ takes)
    (nodup : (batch.map (·.1)).Nodup) :
    (redeemBatch P batch terms.price terms.unit terms.issuerPubkeys terms.now
        commit).wp world
      (fun outcome after => others after = others state ∧
        (Redeemed outcome → batchSettles P terms batch = true ∧
          held after =
            if commit then {id | id ∈ batch.map (·.1)} else ∅) ∧
        (¬ Redeemed outcome → held after = ∅)) state := by
  unfold redeemBatch
  rw [Prog.bind_eq, Prog.wp_bind]
  apply Prog.wp_mono _ _ keys.wp_validateBatch
  intro outcome middle holds
  obtain ⟨sameOthers, sameHeld, computes⟩ := holds
  rw [free] at sameHeld
  have refuse : ∀ outcome, ¬ Redeemed outcome →
      others middle = others state ∧
        (Redeemed outcome → batchSettles P terms batch = true ∧
          held middle =
            if commit then {id | id ∈ batch.map (·.1)} else ∅) ∧
        (¬ Redeemed outcome → held middle = ∅) := fun outcome notRedeemed =>
    ⟨sameOthers, fun redeemed => absurd redeemed notRedeemed,
      fun _ => sameHeld⟩
  cases outcome with
  | error error => exact refuse _ (not_redeemed_error error)
  | ok decision =>
      cases decision with
      | error reason => exact refuse _ (not_redeemed_refused _ _ _)
      | ok total =>
          have totalEq := computes total rfl
          dsimp only [Prog.afterBind]
          rw [Prog.bind_eq, Prog.wp_bind, Prog.wp_ofExcept]
          cases price : Decimal.parse terms.price with
          | error error => exact refuse _ (not_redeemed_error error)
          | ok price' =>
              dsimp only [Prog.afterBind]
              rw [Prog.bind_eq, Prog.wp_bind, Prog.wp_ofExcept]
              cases less : total.lt price' with
              | error error => exact refuse _ (not_redeemed_error error)
              | ok less' =>
                  cases less' with
                  | true => exact refuse _ (not_redeemed_refused _ _ _)
                  | false =>
                      have settled : batchSettles P terms batch = true := by
                        simp [batchSettles, totalEq, price, less]
                      apply Prog.wp_mono _ _
                        (keys.wp_consumeBatch (sameOthers.trans quiet) sameHeld
                          (mine settled) nodup _)
                      intro outcome after holds
                      obtain ⟨afterOthers, redeemed, nothing⟩ := holds
                      refine ⟨afterOthers.trans sameOthers, ?_, nothing⟩
                      exact fun ok => ⟨settled, redeemed ok⟩

theorem KeyWorld.wp_redeemPic (keys : KeyWorld world held others calm takes)
    (quiet : others state = calm) (free : held state = ∅)
    (mine : settles P terms payment = true →
      ∀ key ∈ paymentKeys payment, key ∈ takes)
    (isPic : (payment.get "scheme").isStr "pic" = true) :
    (redeemPic P payment terms.price terms.unit terms.issuerPubkeys terms.now
        commit).wp world
      (RedeemPost P terms payment commit held others state) state := by
  unfold redeemPic
  cases items : (payment.get "vouchers").asList with
  | none => exact .refused rfl free (not_redeemed_refused _ _ _)
  | some items' =>
      cases items' with
      | nil => exact .refused rfl free (not_redeemed_refused _ _ _)
      | cons first rest =>
          dsimp only
          rw [Prog.bind_eq, Prog.wp_bind, Prog.wp_ofExcept]
          cases read : readBatch (first :: rest) [] with
          | error error => exact .refused rfl free (not_redeemed_error _)
          | ok batch =>
              cases batch with
              | none => exact .refused rfl free (not_redeemed_refused _ _ _)
              | some batch =>
                  obtain ⟨sameIds, nodup, _⟩ := readBatch_ids read
                  have sameKeys : paymentKeys payment = batch.map (·.1) := by
                    simp [paymentKeys, isPic, items, ← sameIds]
                  have settled : settles P terms payment =
                      batchSettles P terms batch := by
                    simp [settles, isPic, picSettles, items, read]
                  rw [settled, sameKeys] at mine
                  apply Prog.wp_mono _ _
                    (keys.wp_redeemBatch quiet free mine nodup)
                  intro outcome after holds
                  obtain ⟨sameOthers, redeemed, nothing⟩ := holds
                  refine ⟨sameOthers, ?_, ?_, nothing⟩
                  · intro ok
                    rw [settled]
                    exact (redeemed ok).1
                  · intro ok
                    rw [sameKeys]
                    exact (redeemed ok).2

private theorem verifyX402InnerWithin_amount {maxAge : Int} {inner : Dict}
    {price unit : Text} {now : DateTime}
    {providerPubkey requestId : Option Text}
    (verified : verifyX402InnerWithin P maxAge inner price unit now
      providerPubkey requestId = .ok true) :
    ∃ amount, (inner.get "amount").toStr P.isPrintable = .ok amount := by
  unfold verifyX402InnerWithin at verified
  iterate 4
    split at verified
    · cases verified
  obtain ⟨amount, writes, _⟩ := bind_eq_ok.mp verified
  exact ⟨amount, writes⟩

/-- A verified payment states an amount that can be written. -/
theorem x402Amount_ok {now : DateTime}
    {providerPubkey requestId : Option Text} {price unit : Text}
    (verified : verifyX402Payment P payment price unit now providerPubkey
      requestId = .ok true) :
    ∃ amount, x402Amount P payment price = .ok amount := by
  unfold verifyX402Payment verifyX402Within at verified
  unfold x402Amount
  split at verified
  · cases isDict : (payment.get "payment").asDict with
    | none => exact ⟨price, rfl⟩
    | some inner =>
        rw [isDict] at verified
        obtain ⟨amount, writes⟩ := verifyX402InnerWithin_amount verified
        unfold Dict.get at writes
        dsimp only
        cases stated : inner.find "amount" with
        | none => exact ⟨price, rfl⟩
        | some value =>
            rw [stated] at writes
            exact ⟨amount, writes⟩
  · cases verified

private theorem KeyWorld.wp_redeemX402
    (keys : KeyWorld world held others calm takes)
    (quiet : others state = calm) (free : held state = ∅)
    (mine : settles P terms payment = true →
      ∀ key ∈ paymentKeys payment, key ∈ takes)
    (notPic : (payment.get "scheme").isStr "pic" = false)
    (isX402 : (payment.get "scheme").isStr "x402" = true) :
    (redeemX402 P payment terms.price terms.unit terms.now commit
        terms.providerPubkey terms.requestId).wp world
      (RedeemPost P terms payment commit held others state) state := by
  unfold redeemX402
  cases hasNonce : x402Nonce payment with
  | none => exact .refused rfl free (not_redeemed_refused _ _ _)
  | some nonce =>
      have sameKeys : paymentKeys payment = [x402SpendKey nonce] := by
        simp [paymentKeys, notPic, isX402, hasNonce]
      dsimp only
      rw [Prog.bind_eq, Prog.wp_bind, Prog.wp_ofExcept]
      cases verified : verifyX402Payment P payment terms.price terms.unit
          terms.now terms.providerPubkey terms.requestId with
      | error error => exact .refused rfl free (not_redeemed_error _)
      | ok valid =>
          cases valid with
          | false => exact .refused rfl free (not_redeemed_refused _ _ _)
          | true =>
              obtain ⟨amount, states⟩ := x402Amount_ok verified
              have settled : settles P terms payment = true := by
                simp [settles, notPic, isX402, x402Settles, hasNonce,
                  verified]
              dsimp only [Prog.afterBind]
              simp only [Bool.not_true, Bool.false_eq_true, if_false]
              rw [Prog.bind_eq, Prog.wp_bind]
              apply keys.wp_isSpent
              intro spent middle middleHeld middleOthers
              rw [free] at middleHeld
              cases spent with
              | true =>
                  exact .refused middleOthers middleHeld
                    (not_redeemed_refused _ _ _)
              | false =>
                  dsimp only [Prog.afterBind]
                  cases commit with
                  | false =>
                      simp only [states, Prog.bind_eq, Prog.ofExcept_ok,
                        Prog.bind_ret, Bool.false_eq_true, if_false]
                      exact ⟨middleOthers, fun _ => settled,
                        fun _ => middleHeld, fun _ => middleHeld⟩
                  | true =>
                      simp only [Bool.false_eq_true, if_false, if_true]
                      rw [Prog.bind_eq, Prog.wp_bind]
                      have mineKey : x402SpendKey nonce ∈ takes := by
                        apply mine settled
                        rw [sameKeys]
                        exact List.mem_singleton_self _
                      apply keys.wp_spend (middleOthers.trans quiet) mineKey
                      intro fresh after afterHeld afterOthers
                      rw [middleHeld] at afterHeld
                      have sameOthers := afterOthers.trans middleOthers
                      cases fresh with
                      | false =>
                          exact .refused sameOthers afterHeld
                            (not_redeemed_refused _ _ _)
                      | true =>
                          simp only [Prog.afterBind, states, Prog.bind_eq,
                            Prog.ofExcept_ok, Prog.bind_ret, Bool.not_true,
                            Bool.false_eq_true, if_false]
                          refine ⟨sameOthers, fun _ => settled, ?_, ?_⟩
                          · intro _
                            rw [afterHeld, sameKeys]
                            ext key
                            simp
                          · intro notRedeemed
                            exact absurd ((redeemed_ok _).mpr rfl) notRedeemed

/-- **Redeeming** in a world that keeps track of the keys. -/
theorem KeyWorld.wp_redeem (keys : KeyWorld world held others calm takes)
    (quiet : others state = calm) (free : held state = ∅)
    (mine : settles P terms payment = true →
      ∀ key ∈ paymentKeys payment, key ∈ takes) :
    (redeem P terms payment commit).wp world
      (RedeemPost P terms payment commit held others state) state := by
  unfold redeem redeemPayment
  cases isPic : (payment.get "scheme").isStr "pic" with
  | true => simpa [isPic] using keys.wp_redeemPic quiet free mine isPic
  | false =>
      cases isX402 : (payment.get "scheme").isStr "x402" with
      | true =>
          simpa [isPic, isX402] using
            keys.wp_redeemX402 quiet free mine isPic isX402
      | false =>
          simp only [isPic, isX402, Bool.false_eq_true, if_false]
          rw [Prog.bind_eq, Prog.wp_bind, Prog.wp_ofExcept]
          cases (payment.get "scheme").toStr P.isPrintable with
          | error error => exact .refused rfl free (not_redeemed_error _)
          | ok scheme => exact .refused rfl free (not_redeemed_refused _ _ _)

end

end SovereignInference.SipPic
