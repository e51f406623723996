import SovereignInference.SipPic.FaultyGuard

/-!
# One redemption at a time

Alone with the guard, a payment is redeemed exactly when it settles and all
its keys are unspent, and then committing adds exactly these keys.
-/

namespace SovereignInference.SipPic

open Python Effects SipProtocol

variable {P : Platform} {terms : Terms} {payment : Dict} {commit : Bool}
  {keys : Finset Text}

/-- A guard of which no call raises. -/
def calmPlan : Nat → Option PyExc := fun _ => none

theorem calm_calmPlan (start count : Nat) : Calm calmPlan start count :=
  fun _ _ => rfl

theorem verifies_calmPlan {accepts : Prop} {spends : List Text} :
    Verifies false calmPlan accepts spends keys 0 ↔
      accepts ∧ ∀ key ∈ spends, key ∉ keys :=
  ⟨fun verifies => ⟨verifies.accepted, verifies.fresh⟩,
    fun both => ⟨both.1, both.2, calm_calmPlan _ _⟩⟩

/-- A run on the guard is one on the guard of which no call raises. -/
theorem run_spentTable {α : Type} (program : Prog SpentSig PyExc α) :
    ∃ tick, (faultyTable false calmPlan).run program (keys, 0) =
      ((spentTable.run program keys).1, (spentTable.run program keys).2,
        tick) := by
  obtain ⟨outcome, after⟩ := @run_faultyTable_never false calmPlan _ program
    (fun _ => rfl) (keys, 0)
  generalize (faultyTable false calmPlan).run program (keys, 0) = run at *
  obtain ⟨_, _, tick⟩ := run
  subst outcome after
  exact ⟨tick, rfl⟩

theorem run_validateBatch (batch : List (Text × Dict)) (total : Decimal) :
    (spentTable.run (validateBatch P terms.unit terms.issuerPubkeys terms.now
      batch total) keys).2 = keys ∧
    ∀ sum, (spentTable.run (validateBatch P terms.unit terms.issuerPubkeys
        terms.now batch total) keys).1 = .ok (.ok sum) ↔
      batchTotal P terms batch total = some sum ∧
        ∀ id ∈ batch.map (·.1), id ∉ keys := by
  obtain ⟨tick, same⟩ := @run_spentTable keys _ (validateBatch P terms.unit
    terms.issuerPubkeys terms.now batch total)
  have post := @run_validateBatch_faulty P terms false calmPlan keys 0 batch
    total
  rw [same] at post
  generalize spentTable.run (validateBatch P terms.unit terms.issuerPubkeys
    terms.now batch total) keys = run at post ⊢
  obtain ⟨outcome, after⟩ := run
  obtain ⟨computed, refused⟩ := post
  simp only [verifies_calmPlan] at computed refused
  by_cases sums : ∃ sum, batchTotal P terms batch total = some sum ∧
      ∀ id ∈ batch.map (·.1), id ∉ keys
  · obtain ⟨sum, isSum, fresh⟩ := sums
    cases computed sum ⟨isSum, fresh⟩
    refine ⟨rfl, fun other => ?_⟩
    simp only [isSum, Except.ok.injEq, Option.some.injEq, and_iff_left fresh]
  · have noSum := fun sum both => sums ⟨sum, both⟩
    obtain ⟨notSum, sameKeys⟩ := refused noSum
    exact ⟨sameKeys, fun sum => iff_of_false (notSum sum) (noSum sum)⟩

theorem run_spendAll {ids spentIds : List Text} (nodup : ids.Nodup)
    (fresh : ∀ id ∈ ids, id ∉ keys) :
    spentTable.run (spendAll ids spentIds) keys =
      (.ok true, keys ∪ ids.toFinset) := by
  obtain ⟨tick, same⟩ := @run_spentTable keys _ (spendAll ids spentIds)
  have spends := (@run_spendAll_faulty false calmPlan keys 0 ids spentIds nodup
    fresh).1 (calm_calmPlan _ _)
  rw [same] at spends
  generalize spentTable.run (spendAll ids spentIds) keys = run at spends ⊢
  obtain ⟨outcome, after⟩ := run
  cases spends
  rfl

/-- What a run on the guard does: it redeems exactly under a condition, and
then adds the keys if it commits. -/
structure RunPost (run : Except PyExc RedeemResult × Finset Text)
    (accepts : Prop) (spends : List Text) (commit : Bool)
    (keys : Finset Text) : Prop where
  redeemed : Redeemed run.1 ↔ accepts ∧ ∀ key ∈ spends, key ∉ keys
  committed : Redeemed run.1 →
    run.2 = if commit then keys ∪ spends.toFinset else keys
  unchanged : ¬ Redeemed run.1 → run.2 = keys

/-- **Sequential redemption.** -/
theorem run_redeem :
    RunPost (spentTable.run (redeem P terms payment commit) keys)
      (settles P terms payment) (paymentKeys payment) commit keys := by
  obtain ⟨tick, same⟩ := @run_spentTable keys _ (redeem P terms payment commit)
  have post := @run_redeem_faulty P terms payment commit false calmPlan keys 0
  rw [same] at post
  generalize spentTable.run (redeem P terms payment commit) keys = run at post ⊢
  obtain ⟨outcome, after⟩ := run
  obtain ⟨refused, verified, committed, _⟩ := post
  simp only [verifies_calmPlan, and_imp] at refused verified committed
  by_cases accepts : settles P terms payment = true ∧
      ∀ key ∈ paymentKeys payment, key ∉ keys
  · have redeemed : Redeemed outcome ∧ after =
        if commit then keys ∪ (paymentKeys payment).toFinset else keys := by
      cases commit with
      | false =>
          obtain ⟨redeemed, state⟩ := verified accepts.1 accepts.2 rfl
          exact ⟨redeemed, (Prod.mk.inj state).1⟩
      | true =>
          obtain ⟨redeemed, state⟩ := committed accepts.1 accepts.2 rfl
            (calm_calmPlan _ _)
          exact ⟨redeemed, (Prod.mk.inj state).1⟩
    exact ⟨iff_of_true redeemed.1 accepts, fun _ => redeemed.2,
      fun refused => absurd redeemed.1 refused⟩
  · obtain ⟨notRedeemed, sameKeys⟩ := refused accepts
    exact ⟨iff_of_false notRedeemed accepts,
      fun redeemed => absurd redeemed notRedeemed, fun _ => sameKeys⟩

end SovereignInference.SipPic
