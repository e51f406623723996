import SovereignInference.SipPic.Settlement
import Mathlib.Data.Finset.Union

/-!
# Redemption when calls of the guard may raise

Every statement on the table commits by itself, so a call that raises changes
nothing.  A redemption looks up the keys of a payment that settles and then
spends them in the same order; a raising call ends it where it stands.
-/

namespace SovereignInference.SipPic

open Python Effects SipProtocol

/-- The answer of a call that raises. -/
def raised (error : PyExc) : (op : SpentOp) → SpentSig.Ans op
  | .isSpent _ => .error error
  | .spend _ => .error error
  | .unspend _ => .error error

/-- The calls with a number: all of them, or only the ones that spend. -/
def counted (all : Bool) : SpentOp → Bool
  | .spend _ => true
  | _ => all

/-- The guard over one table, where a plan says for each number which error
the call raises; the state counts the calls that were tried. -/
def faultyTable (all : Bool) (plan : Nat → Option PyExc) :
    Handler SpentSig (Finset Text × Nat) where
  respond := fun state op =>
    let response := spentTable.respond state.1 op
    if counted all op then
      match plan state.2 with
      | some error => (raised error op, (state.1, state.2 + 1))
      | none => (response.1, (response.2, state.2 + 1))
    else (response.1, (response.2, state.2))

/-- None of so many calls raises, from a number on. -/
def Calm (plan : Nat → Option PyExc) (start count : Nat) : Prop :=
  ∀ n < count, plan (start + n) = none

/-- How far so many lookups count. -/
def lookups (all : Bool) (count : Nat) : Nat := if all then count else 0

section

variable {plan : Nat → Option PyExc} {start : Nat}

@[simp] theorem calm_zero : Calm plan start 0 := by
  intro n below
  omega

theorem calm_add {count more : Nat} :
    Calm plan start (count + more) ↔
      Calm plan start count ∧ Calm plan (start + count) more := by
  constructor
  · intro calm
    refine ⟨fun n below => calm n (by omega), ?_⟩
    intro n below
    rw [Nat.add_assoc]
    exact calm (count + n) (by omega)
  · rintro ⟨first, second⟩ n below
    by_cases early : n < count
    · exact first n early
    · have later := second (n - count) (by omega)
      rwa [Nat.add_assoc, Nat.add_sub_cancel' (by omega)] at later

theorem calm_one : Calm plan start 1 ↔ plan start = none := by
  constructor
  · intro calm
    exact calm 0 Nat.one_pos
  · intro calm n below
    obtain rfl : n = 0 := by omega
    exact calm

/-- Either no call raises, or there is a first one that does. -/
theorem calm_or_raises (plan : Nat → Option PyExc) (start count : Nat) :
    Calm plan start count ∨ ∃ index error, index < count ∧
      Calm plan start index ∧ plan (start + index) = some error := by
  induction count with
  | zero => exact .inl calm_zero
  | succ count induction =>
      rcases induction with calm | ⟨index, error, below, calm, raises⟩
      · cases last : plan (start + count) with
        | none =>
            exact .inl (calm_add.mpr ⟨calm, calm_one.mpr last⟩)
        | some error =>
            exact .inr ⟨count, error, Nat.lt_succ_self _, calm, last⟩
      · exact .inr ⟨index, error, by omega, calm, raises⟩

end

variable {P : Platform} {terms : Terms} {payment : Dict} {commit all : Bool}
  {plan : Nat → Option PyExc} {keys : Finset Text} {start : Nat}

/-- If no call raises, the guard is the plain one. -/
theorem run_faultyTable_never {α : Type} (program : Prog SpentSig PyExc α)
    (never : ∀ n, plan n = none) (state : Finset Text × Nat) :
    ((faultyTable all plan).run program state).1 =
        (spentTable.run program state.1).1 ∧
      ((faultyTable all plan).run program state).2.1 =
        (spentTable.run program state.1).2 := by
  induction program generalizing state with
  | ret value => exact ⟨rfl, rfl⟩
  | raise error => exact ⟨rfl, rfl⟩
  | call op next induction =>
      rw [Handler.run_call, Handler.run_call]
      have same : ∃ tick, (faultyTable all plan).respond state op =
          ((spentTable.respond state.1 op).1,
            (spentTable.respond state.1 op).2, tick) := by
        dsimp only [faultyTable]
        rw [never]
        split_ifs
        · exact ⟨_, rfl⟩
        · exact ⟨_, rfl⟩
      obtain ⟨tick, same⟩ := same
      rw [same]
      exact induction _ _

section Calls

variable {α : Type} {key : Text}

theorem run_call_raises {op : SpentOp} {error : PyExc}
    (isCounted : counted all op = true) (raises : plan start = some error)
    (next : SpentSig.Ans op → Prog SpentSig PyExc α) :
    (faultyTable all plan).run (.call op next) (keys, start) =
      (faultyTable all plan).run (next (raised error op))
        (keys, start + 1) := by
  rw [Handler.run_call]
  simp [faultyTable, isCounted, raises]

theorem run_isSpent_raises {error : PyExc}
    (raises : plan start = some error)
    (rest : Bool → Prog SpentSig PyExc α) :
    (faultyTable true plan).run ((isSpent key).bind rest) (keys, start) =
      (.error error, (keys, start + 1)) :=
  run_call_raises rfl raises _

theorem run_isSpent_calm (calm : Calm plan start (lookups all 1))
    (rest : Bool → Prog SpentSig PyExc α) :
    (faultyTable all plan).run ((isSpent key).bind rest) (keys, start) =
      (faultyTable all plan).run (rest (decide (key ∈ keys)))
        (keys, start + lookups all 1) := by
  have response : (faultyTable all plan).respond (keys, start)
      (.isSpent key) =
        (.ok (decide (key ∈ keys)), (keys, start + lookups all 1)) := by
    cases all with
    | false => rfl
    | true => simp [faultyTable, counted, lookups, calm_one.mp calm]
  show (faultyTable all plan).run
    ((Prog.ofExcept ((faultyTable all plan).respond (keys, start)
      (.isSpent key)).1).bind rest) _ = _
  rw [response]
  rfl

theorem run_spend_raises {error : PyExc} (raises : plan start = some error)
    (rest : Bool → Prog SpentSig PyExc α) :
    (faultyTable all plan).run ((spend key).bind rest) (keys, start) =
      (.error error, (keys, start + 1)) :=
  run_call_raises rfl raises _

theorem run_spend_calm (fresh : key ∉ keys) (calm : plan start = none)
    (rest : Bool → Prog SpentSig PyExc α) :
    (faultyTable all plan).run ((spend key).bind rest) (keys, start) =
      (faultyTable all plan).run (rest true) (insert key keys, start + 1) := by
  have response : (faultyTable all plan).respond (keys, start)
      (.spend key) = (.ok true, (insert key keys, start + 1)) := by
    simp [faultyTable, counted, calm, respond_spend_fresh fresh]
  show (faultyTable all plan).run
    ((Prog.ofExcept ((faultyTable all plan).respond (keys, start)
      (.spend key)).1).bind rest) _ = _
  rw [response]
  rfl

end Calls

/-- The payment is good, its keys are unspent, and no lookup raises. -/
structure Verifies (all : Bool) (plan : Nat → Option PyExc) (accepts : Prop)
    (spends : List Text) (keys : Finset Text) (start : Nat) : Prop where
  accepted : accepts
  fresh : ∀ key ∈ spends, key ∉ keys
  calm : Calm plan start (lookups all spends.length)

/-- What a validation does: it sums a batch up, or it changes no key. -/
structure ValidatePost (all : Bool) (plan : Nat → Option PyExc)
    (run : Except PyExc (Except Text Decimal) × Finset Text × Nat)
    (total : Option Decimal) (ids : List Text) (keys : Finset Text)
    (start : Nat) : Prop where
  computed : ∀ sum, Verifies all plan (total = some sum) ids keys start →
    run = (.ok (.ok sum), keys, start + lookups all ids.length)
  refused : (∀ sum, ¬ Verifies all plan (total = some sum) ids keys start) →
    (∀ sum, run.1 ≠ .ok (.ok sum)) ∧ run.2.1 = keys

theorem ValidatePost.refuse {total : Option Decimal} {ids : List Text}
    {outcome : Except PyExc (Except Text Decimal)} {after : Nat}
    (fails : ∀ sum, ¬ Verifies all plan (total = some sum) ids keys start)
    (notSum : ∀ sum, outcome ≠ .ok (.ok sum)) :
    ValidatePost all plan (outcome, keys, after) total ids keys start where
  computed := fun sum verifies => absurd verifies (fails sum)
  refused := fun _ => ⟨notSum, rfl⟩

theorem lookups_succ (count : Nat) :
    lookups all (count + 1) = lookups all 1 + lookups all count := by
  unfold lookups
  split_ifs
  · exact Nat.add_comm _ _
  · rfl

/-- A lookup more, of an id that is unspent. -/
theorem verifies_cons {accepts : Prop} {id : Text} {ids : List Text} :
    Verifies all plan accepts (id :: ids) keys start ↔
      id ∉ keys ∧ Calm plan start (lookups all 1) ∧
        Verifies all plan accepts ids keys (start + lookups all 1) := by
  constructor
  · rintro ⟨accepted, fresh, calm⟩
    rw [List.length_cons, lookups_succ, calm_add] at calm
    obtain ⟨first, others⟩ := List.forall_mem_cons.mp fresh
    exact ⟨first, calm.1, accepted, others, calm.2⟩
  · rintro ⟨first, now, accepted, others, later⟩
    refine ⟨accepted, List.forall_mem_cons.mpr ⟨first, others⟩, ?_⟩
    rw [List.length_cons, lookups_succ, calm_add]
    exact ⟨now, later⟩

theorem ValidatePost.cons {total : Option Decimal} {id : Text}
    {ids : List Text}
    {run : Except PyExc (Except Text Decimal) × Finset Text × Nat}
    (fresh : id ∉ keys) (calm : Calm plan start (lookups all 1))
    (post : ValidatePost all plan run total ids keys
      (start + lookups all 1)) :
    ValidatePost all plan run total (id :: ids) keys start := by
  constructor
  · intro sum verifies
    rw [post.computed sum (verifies_cons.mp verifies).2.2, List.length_cons,
      lookups_succ ids.length, Nat.add_assoc]
  · intro fails
    apply post.refused
    intro sum verifies
    exact fails sum (verifies_cons.mpr ⟨fresh, calm, verifies⟩)

/-- Lookups that are not counted do not raise. -/
theorem calm_lookups (plan : Nat → Option PyExc) (start : Nat) :
    Calm plan start (lookups all 1) ∨
      all = true ∧ ∃ error, plan start = some error := by
  cases all with
  | false => exact .inl calm_zero
  | true =>
      cases raises : plan start with
      | none => exact .inl (calm_one.mpr raises)
      | some error => exact .inr ⟨rfl, error, rfl⟩

theorem run_validateBatch_faulty (batch : List (Text × Dict))
    (total : Decimal) :
    ValidatePost all plan
      ((faultyTable all plan).run (validateBatch P terms.unit
        terms.issuerPubkeys terms.now batch total) (keys, start))
      (batchTotal P terms batch total) (batch.map (·.1)) keys start := by
  induction batch generalizing total start with
  | nil =>
      constructor
      · rintro sum ⟨same, _, _⟩
        cases same
        simp [validateBatch, lookups]
      · intro fails
        exact absurd ⟨rfl, by simp, by simp [lookups]⟩ (fails total)
  | cons entry rest induction =>
      obtain ⟨id, voucher⟩ := entry
      unfold validateBatch batchTotal
      rw [List.map_cons]
      cases validateVoucher P voucher terms.unit terms.issuerPubkeys
          terms.now with
      | error error => exact .refuse (by rintro sum ⟨⟨⟩, _⟩) (by simp)
      | ok reason =>
          cases reason with
          | some reason => exact .refuse (by rintro sum ⟨⟨⟩, _⟩) (by simp)
          | none =>
              simp only [Prog.bind_eq, Prog.ofExcept_ok, Prog.bind_ret]
              rcases @calm_lookups all plan start with calm |
                ⟨rfl, error, raises⟩
              · rw [run_isSpent_calm calm]
                by_cases spent : id ∈ keys
                · simp only [spent, decide_true, if_true]
                  refine .refuse ?_ (by simp)
                  intro sum verifies
                  exact (verifies_cons.mp verifies).1 spent
                · simp only [spent, decide_false, Bool.false_eq_true, if_false]
                  refine .cons spent calm ?_
                  cases addDenomination P total voucher with
                  | error error =>
                      exact .refuse (by rintro sum ⟨⟨⟩, _⟩) (by simp)
                  | ok sum =>
                      cases sum with
                      | none => exact .refuse (by rintro sum ⟨⟨⟩, _⟩) (by simp)
                      | some sum => exact induction sum
              · rw [run_isSpent_raises raises]
                refine .refuse ?_ (by simp)
                intro sum verifies
                have calm := calm_one.mp (verifies_cons.mp verifies).2.1
                rw [raises] at calm
                cases calm

/-- Spending unspent ids spends them up to the first call that raises. -/
theorem run_spendAll_faulty {ids spentIds : List Text} (nodup : ids.Nodup)
    (fresh : ∀ id ∈ ids, id ∉ keys) :
    (Calm plan start ids.length →
      (faultyTable all plan).run (spendAll ids spentIds) (keys, start) =
        (.ok true, keys ∪ ids.toFinset, start + ids.length)) ∧
    ∀ index error, index < ids.length → Calm plan start index →
      plan (start + index) = some error →
        (faultyTable all plan).run (spendAll ids spentIds) (keys, start) =
          (.error error, keys ∪ (ids.take index).toFinset,
            start + index + 1) := by
  induction ids generalizing spentIds keys start with
  | nil => simp [spendAll]
  | cons id rest induction =>
      obtain ⟨notLater, nodup⟩ := List.nodup_cons.mp nodup
      obtain ⟨first, others⟩ := List.forall_mem_cons.mp fresh
      have later : ∀ other ∈ rest, other ∉ insert id keys := by
        intro other member
        rw [Finset.mem_insert, not_or]
        refine ⟨?_, others other member⟩
        rintro rfl
        exact notLater member
      obtain ⟨spends, stops⟩ := @induction (insert id keys) (start + 1)
        (spentIds ++ [id]) nodup later
      unfold spendAll
      rw [Prog.bind_eq]
      constructor
      · intro calm
        rw [List.length_cons, Nat.add_comm, calm_add, calm_one] at calm
        rw [run_spend_calm first calm.1, if_pos rfl, spends calm.2,
          List.toFinset_cons, Finset.insert_union, Finset.union_insert,
          List.length_cons]
        congr 2
        omega
      · intro index error inside calm raises
        cases index with
        | zero =>
            rw [Nat.add_zero] at raises
            rw [run_spend_raises raises]
            simp
        | succ index =>
            rw [Nat.add_comm, calm_add, calm_one] at calm
            have next : start + (index + 1) = start + 1 + index := by omega
            rw [next] at raises ⊢
            rw [run_spend_calm first calm.1, if_pos rfl,
              stops index error (by simpa using inside) calm.2 raises,
              List.take_succ_cons, List.toFinset_cons, Finset.insert_union,
              Finset.union_insert]

/-- What a redemption does: it changes no key unless it verifies, and spends
the keys up to the first call that raises if it commits. -/
structure FaultyPost (all : Bool) (plan : Nat → Option PyExc)
    (run : Except PyExc RedeemResult × Finset Text × Nat) (accepts : Prop)
    (spends : List Text) (commit : Bool) (keys : Finset Text) (start : Nat) :
    Prop where
  refused : ¬ Verifies all plan accepts spends keys start →
    ¬ Redeemed run.1 ∧ run.2.1 = keys
  verified : Verifies all plan accepts spends keys start → commit = false →
    Redeemed run.1 ∧ run.2 = (keys, start + lookups all spends.length)
  committed : Verifies all plan accepts spends keys start → commit = true →
    Calm plan (start + lookups all spends.length) spends.length →
      Redeemed run.1 ∧ run.2 = (keys ∪ spends.toFinset,
        start + lookups all spends.length + spends.length)
  stopped : Verifies all plan accepts spends keys start → commit = true →
    ∀ index error, index < spends.length →
      Calm plan (start + lookups all spends.length) index →
      plan (start + lookups all spends.length + index) = some error →
        run = (.error error, keys ∪ (spends.take index).toFinset,
          start + lookups all spends.length + index + 1)

variable {accepts : Prop} {spends : List Text}

theorem FaultyPost.refuse {outcome : Except PyExc RedeemResult} {after : Nat}
    (notRedeemed : ¬ Redeemed outcome)
    (fails : ¬ Verifies all plan accepts spends keys start) :
    FaultyPost all plan (outcome, keys, after) accepts spends commit keys
      start where
  refused := fun _ => ⟨notRedeemed, rfl⟩
  verified := fun verifies => absurd verifies fails
  committed := fun verifies => absurd verifies fails
  stopped := fun verifies => absurd verifies fails

/-- A payment that is not good is refused, whatever its keys are. -/
theorem FaultyPost.decline {outcome : Except PyExc RedeemResult} {after : Nat}
    (notRedeemed : ¬ Redeemed outcome) (declined : ¬ accepts) :
    FaultyPost all plan (outcome, keys, after) accepts spends commit keys
      start :=
  .refuse notRedeemed fun verifies => declined verifies.accepted

/-- What is consumed after the lookups. -/
theorem run_consumeBatch_faulty (nodup : spends.Nodup)
    (verifies : Verifies all plan accepts spends keys start) (total : Text) :
    FaultyPost all plan ((faultyTable all plan).run
        (consumeBatch spends total commit)
        (keys, start + lookups all spends.length))
      accepts spends commit keys start := by
  obtain ⟨spendsAll, stops⟩ := @run_spendAll_faulty all plan keys
    (start + lookups all spends.length) spends [] nodup verifies.fresh
  unfold consumeBatch
  refine ⟨fun fails => absurd verifies fails, ?_, ?_, ?_⟩
  · rintro _ rfl
    exact ⟨⟨_, rfl, rfl⟩, rfl⟩
  · rintro _ rfl calm
    simp [Handler.run_bind, spendsAll calm]
  · rintro _ rfl index error inside calm raises
    simp [Handler.run_bind, stops index error inside calm raises]

private theorem run_redeemBatch_faulty {batch : List (Text × Dict)}
    (nodup : (batch.map (·.1)).Nodup) :
    FaultyPost all plan
      ((faultyTable all plan).run (redeemBatch P batch terms.price terms.unit
        terms.issuerPubkeys terms.now commit) (keys, start))
      (batchSettles P terms batch = true) (batch.map (·.1)) commit keys
      start := by
  have validated := @run_validateBatch_faulty P terms all plan keys start batch
    .zero
  unfold redeemBatch
  rw [Prog.bind_eq, Handler.run_bind]
  by_cases summed : ∃ sum, Verifies all plan
      (batchTotal P terms batch .zero = some sum) (batch.map (·.1)) keys start
  · obtain ⟨sum, verified⟩ := summed
    rw [validated.computed sum verified]
    obtain ⟨isSum, fresh, calm⟩ := verified
    dsimp only
    cases priced : Decimal.parse terms.price with
    | error error =>
        apply FaultyPost.decline (not_redeemed_error error)
        simp [batchSettles, isSum, priced]
    | ok price =>
        cases less : sum.lt price with
        | error error =>
            simp only [Prog.bind_eq, Prog.ofExcept_ok, Prog.bind_ret, less,
              Prog.ofExcept_error, Prog.bind_raise, Handler.run_raise]
            apply FaultyPost.decline (not_redeemed_error error)
            simp [batchSettles, isSum, priced, less]
        | ok less' =>
            have settles : batchSettles P terms batch = !less' := by
              simp [batchSettles, isSum, priced, less]
            simp only [Prog.bind_eq, Prog.ofExcept_ok, Prog.bind_ret, less,
              settles]
            cases less' with
            | true =>
                exact .decline (not_redeemed_refused _ _ _) Bool.false_ne_true
            | false =>
                exact run_consumeBatch_faulty nodup ⟨rfl, fresh, calm⟩ _
  · have fails : ¬ Verifies all plan (batchSettles P terms batch = true)
        (batch.map (·.1)) keys start := by
      rintro ⟨settled, fresh, calm⟩
      cases isSum : batchTotal P terms batch .zero with
      | none => simp [batchSettles, isSum] at settled
      | some sum => exact summed ⟨sum, isSum, fresh, calm⟩
    obtain ⟨notSum, sameKeys⟩ := validated.refused
      fun sum verifies => summed ⟨sum, verifies⟩
    generalize (faultyTable all plan).run (validateBatch P terms.unit
      terms.issuerPubkeys terms.now batch .zero) (keys, start) = run at *
    obtain ⟨outcome, after, tick⟩ := run
    obtain rfl : after = keys := sameKeys
    cases outcome with
    | error error => exact .refuse (not_redeemed_error error) fails
    | ok decision =>
        cases decision with
        | error reason => exact .refuse (not_redeemed_refused _ _ _) fails
        | ok sum => exact absurd rfl (notSum sum)

theorem run_redeemPic_faulty
    (isPic : (payment.get "scheme").isStr "pic" = true) :
    FaultyPost all plan
      ((faultyTable all plan).run (redeemPic P payment terms.price terms.unit
        terms.issuerPubkeys terms.now commit) (keys, start))
      (settles P terms payment = true) (paymentKeys payment) commit keys
      start := by
  unfold redeemPic
  cases items : (payment.get "vouchers").asList with
  | none =>
      apply FaultyPost.decline (not_redeemed_refused _ _ _)
      simp [settles, isPic, picSettles, items]
  | some items' =>
      cases items' with
      | nil =>
          apply FaultyPost.decline (not_redeemed_refused _ _ _)
          simp [settles, isPic, picSettles, items]
      | cons first rest =>
          dsimp only
          cases read : readBatch (first :: rest) [] with
          | error error =>
              apply FaultyPost.decline (not_redeemed_error error)
              simp [settles, isPic, picSettles, items, read]
          | ok batch =>
              cases batch with
              | none =>
                  apply FaultyPost.decline (not_redeemed_refused _ _ _)
                  simp [settles, isPic, picSettles, items, read]
              | some batch =>
                  obtain ⟨sameIds, nodup, _⟩ := readBatch_ids read
                  have sameKeys : paymentKeys payment = batch.map (·.1) := by
                    simp [paymentKeys, isPic, items, ← sameIds]
                  have settled : settles P terms payment =
                      batchSettles P terms batch := by
                    simp [settles, isPic, picSettles, items, read]
                  rw [sameKeys, settled]
                  exact run_redeemBatch_faulty nodup

private theorem run_redeemX402_faulty
    (notPic : (payment.get "scheme").isStr "pic" = false)
    (isX402 : (payment.get "scheme").isStr "x402" = true) :
    FaultyPost all plan
      ((faultyTable all plan).run (redeemX402 P payment terms.price terms.unit
        terms.now commit terms.providerPubkey terms.requestId) (keys, start))
      (settles P terms payment = true) (paymentKeys payment) commit keys
      start := by
  unfold redeemX402
  cases hasNonce : x402Nonce payment with
  | none =>
      apply FaultyPost.decline (not_redeemed_refused _ _ _)
      simp [settles, notPic, isX402, x402Settles, hasNonce]
  | some nonce =>
      have sameKeys : paymentKeys payment = [x402SpendKey nonce] := by
        simp [paymentKeys, notPic, isX402, hasNonce]
      dsimp only
      cases verified : verifyX402Payment P payment terms.price terms.unit
          terms.now terms.providerPubkey terms.requestId with
      | error error =>
          apply FaultyPost.decline (not_redeemed_error error)
          simp [settles, notPic, isX402, x402Settles, hasNonce, verified]
      | ok valid =>
          have settled : settles P terms payment = valid := by
            simp [settles, notPic, isX402, x402Settles, hasNonce, verified]
          rw [settled, sameKeys]
          cases valid with
          | false =>
              exact .decline (not_redeemed_refused _ _ _) Bool.false_ne_true
          | true =>
              obtain ⟨amount, states⟩ := x402Amount_ok verified
              simp only [Prog.bind_eq, Prog.ofExcept_ok, Prog.bind_ret,
                Bool.not_true, Bool.false_eq_true, if_false]
              rcases @calm_lookups all plan start with calm |
                ⟨rfl, error, raises⟩
              · rw [run_isSpent_calm calm]
                by_cases spent : x402SpendKey nonce ∈ keys
                · simp only [spent, decide_true, if_true]
                  apply FaultyPost.refuse (not_redeemed_refused _ _ _)
                  intro verifies
                  exact (verifies_cons.mp verifies).1 spent
                · simp only [spent, decide_false, Bool.false_eq_true, if_false]
                  have fresh : ∀ key ∈ [x402SpendKey nonce], key ∉ keys :=
                    List.forall_mem_singleton.mpr spent
                  refine ⟨fun fails => absurd ⟨trivial, fresh, calm⟩ fails, ?_,
                    ?_, ?_⟩
                  · rintro _ rfl
                    simp [states]
                  · rintro _ rfl quiet
                    have now : plan (start + lookups all 1) = none :=
                      calm_one.mp quiet
                    simp [run_spend_calm spent now, states,
                      Finset.union_singleton]
                  · rintro _ rfl index error inside _ raises
                    obtain rfl : index = 0 := by simpa using inside
                    have now : plan (start + lookups all 1) = some error :=
                      raises
                    simp [run_spend_raises now]
              · rw [run_isSpent_raises raises]
                apply FaultyPost.refuse (not_redeemed_error error)
                intro verifies
                have calm := calm_one.mp (verifies_cons.mp verifies).2.1
                rw [raises] at calm
                cases calm

/-- **Redemption when calls may raise.** -/
theorem run_redeem_faulty :
    FaultyPost all plan
      ((faultyTable all plan).run (redeem P terms payment commit)
        (keys, start))
      (settles P terms payment = true) (paymentKeys payment) commit keys
      start := by
  unfold redeem redeemPayment
  cases isPic : (payment.get "scheme").isStr "pic" with
  | true => simpa [isPic] using run_redeemPic_faulty isPic
  | false =>
      cases isX402 : (payment.get "scheme").isStr "x402" with
      | true => simpa [isPic, isX402] using run_redeemX402_faulty isPic isX402
      | false =>
          have declined : ¬ settles P terms payment = true := by
            simp [settles, isPic, isX402]
          simp only [isPic, isX402, Bool.false_eq_true, if_false]
          cases (payment.get "scheme").toStr P.isPrintable with
          | error error => exact .decline (not_redeemed_error error) declined
          | ok scheme => exact .decline (not_redeemed_refused _ _ _) declined

end SovereignInference.SipPic
