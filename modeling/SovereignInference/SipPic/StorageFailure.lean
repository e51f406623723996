import SovereignInference.SipPic.RedemptionSpec

/-!
# A write that fails in the middle of a batch

The loop that spends a batch gives back what it spent when a key turns out to
be spent, but not when the store raises.  What a failing write leaves behind
are the vouchers in front of it.
-/

namespace SovereignInference.SipPic

open Python Effects SipProtocol

/-- The guard over one table, where the write with this number raises; the
state counts the writes that were tried. -/
def failingTable (index : Nat) (failure : PyExc) :
    Handler SpentSig (Finset Text × Nat) where
  respond := fun state op =>
    match op with
    | .isSpent key => (.ok (selectSpent state.1 key), state)
    | .spend key =>
        if state.2 = index then (.error failure, (state.1, state.2 + 1))
        else
          match insertSpent state.1 key with
          | none => (.ok false, (state.1, state.2 + 1))
          | some after => (.ok true, (after, state.2 + 1))
    | .unspend key => (.ok (), (deleteSpent state.1 key, state.2))

variable {P : Platform} {terms : Terms} {payment : Dict} {keys : Finset Text}
  {index : Nat} {failure : PyExc}

/-- Only the write with this number raises. -/
def failsAt (index : Nat) (failure : PyExc) (n : Nat) : Option PyExc :=
  if n = index then some failure else none

private theorem failingTable_eq :
    failingTable index failure = faultyTable false (failsAt index failure) := by
  unfold failingTable faultyTable
  congr 1
  funext state op
  cases op with
  | isSpent key => rfl
  | unspend key => rfl
  | spend key =>
      simp only [counted, failsAt, spentTable]
      split_ifs
      · rfl
      · cases insertSpent state.1 key <;> rfl

/-- A failing write ends the redemption of a good batch with its error, and
leaves the vouchers in front of it spent. -/
theorem redeem_fails (settled : settles P terms payment = true)
    (unspent : ∀ key ∈ paymentKeys payment, key ∉ keys)
    (inside : index < (paymentKeys payment).length) :
    (failingTable index failure).run (redeem P terms payment true) (keys, 0) =
      (.error failure,
        (keys ∪ ((paymentKeys payment).take index).toFinset, index + 1)) := by
  have post := @run_redeem_faulty P terms payment true false
    (failsAt index failure) keys 0
  have stops := post.stopped ⟨settled, unspent, calm_zero⟩ rfl index failure
    inside
  simp only [lookups, Bool.false_eq_true, if_false, Nat.zero_add] at stops
  rw [failingTable_eq]
  apply stops
  · intro n below
    rw [Nat.zero_add]
    exact if_neg below.ne
  · exact if_pos rfl

/-- **A failing write leaves the guard as it was exactly when it is the
first.** -/
theorem failing_spend_unchanged_iff
    (settled : settles P terms payment = true)
    (unspent : ∀ key ∈ paymentKeys payment, key ∉ keys)
    (inside : index < (paymentKeys payment).length) :
    ((failingTable index failure).run (redeem P terms payment true)
        (keys, 0)).2.1 = keys ↔ index = 0 := by
  rw [redeem_fails settled unspent inside]
  constructor
  · intro unchanged
    by_contra later
    cases ids : paymentKeys payment with
    | nil => simp [ids] at inside
    | cons id rest =>
        obtain ⟨n, rfl⟩ := Nat.exists_eq_succ_of_ne_zero later
        apply unspent id (by simp [ids])
        rw [← unchanged, ids]
        simp
  · rintro rfl
    simp

theorem failing_spend_unchanged_iff_first :
    ((failingTable 0 .operationalError).run
      (redeem voucherTable.platform batchTerms batchPayment true)
        (∅, 0)).2.1 = ∅ :=
  (failing_spend_unchanged_iff (by decide +kernel) (by simp)
    (by decide)).mpr rfl

/-- The second write of a good batch fails, and the first voucher is gone. -/
theorem failing_spend_loses_voucher :
    settles voucherTable.platform batchTerms batchPayment = true ∧
      (failingTable 1 .operationalError).run
          (redeem voucherTable.platform batchTerms batchPayment true) (∅, 0) =
        (.error .operationalError, ({firstId}, 2)) := by
  decide +kernel

end SovereignInference.SipPic
