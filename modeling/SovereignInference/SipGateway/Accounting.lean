import SovereignInference.SipGateway.Bookkeeping
import SovereignInference.SipGateway.Delivery
import SovereignInference.SipPic.RedemptionSpec
import Mathlib.Algebra.BigOperators.Group.Finset.Basic
import Mathlib.Algebra.Order.BigOperators.Group.Finset

/-!
# The books of many requests

Requests at any number of gateways share one guard and one ledger, one call at
a time and in any order.  The guard divides its keys between them, so the
vouchers of two entries differ, every completion has its entry, and what the
entries credit is covered by the vouchers that were spent.
-/

namespace SovereignInference.SipGateway

open Python Effects SipProtocol SipPic

structure Books where
  spent : Finset Text
  ledger : List LedgerEntry

/-- The guard and the ledger do what they are asked; clocks, limiters and
adapters answer as they like. -/
def booksWorld : World GatewaySig Books where
  allowed := fun _ _ => True
  step := fun books op answer after =>
    match op, answer with
    | .inl op, answer =>
        spentTable.world.step books.spent op answer after.spent ∧
          after.ledger = books.ledger
    | .inr (.record entry), answer =>
        (answer, after.ledger) = Ledger.record books.ledger entry (.ok ()) ∧
          after.spent = books.spent
    | .inr _, _ => after = books

theorem booksWorld_answered (books : Books) (op : GatewaySig.Op)
    (answer : GatewaySig.Ans op) (after : Books)
    (stepped : booksWorld.step books op answer after) :
    StoreAnswered ⟨op, answer⟩ := by
  cases op with
  | inl op => exact spentTable_answered stepped.1
  | inr op =>
      cases op with
      | record entry => exact (Prod.mk.inj stepped.1).1
      | _ => trivial

theorem booksWorld_exclusive :
    ExclusiveStore booksWorld gatewayAction fun books => ↑books.spent where
  effect := by
    intro books op answer after stepped
    cases op with
    | inl op => exact spentTable_exclusive.effect _ _ _ _ stepped.1
    | inr op =>
        cases op with
        | record entry =>
            rw [stepped.2]
            rfl
        | _ =>
            obtain rfl : after = books := stepped
            rfl
  absent := by
    intro books op answer after key stepped acquires
    cases op with
    | inl op => exact spentTable_exclusive.absent _ _ _ _ key stepped.1 acquires
    | inr op => cases acquires

theorem booksRule_releases (P : Platform) (call : GatewayCall) :
    ReleasesOwn gatewayAction (BooksRule P call) := by
  intro trace op answer key allowed releases
  cases op with
  | inr op => cases releases
  | inl op =>
      cases op with
      | isSpent other => cases releases
      | spend other =>
          cases answer with
          | error error => cases releases
          | ok fresh => cases fresh <;> cases releases
      | unspend other =>
          cases answer with
          | error error => cases releases
          | ok done =>
              cases releases
              exact allowed.2

section

variable {P : Platform} {call : GatewayCall}
  {trace : List (Event GatewaySig)}

/-- What was spent backs the request, and an entry was recorded with all keys
in hand, which are held since. -/
structure BooksKept (P : Platform) (call : GatewayCall)
    (trace : List (Event GatewaySig)) : Prop where
  backed : ∀ key ∈ heldKeys trace, key ∈ backedKeys P call
  entries : entriesOf trace = [] ∨
    ∃ order required, Backs P call order required ∧
      entriesOf trace = [ledgerEntry P call.gateway order required] ∧
        heldKeys trace = {key | key ∈ paymentKeys order.payment}

theorem booksKept_append {event : Event GatewaySig}
    (kept : BooksKept P call trace) (allowed : BooksRule P call trace event.op) :
    BooksKept P call (trace ++ [event]) := by
  obtain ⟨op, answer⟩ := event
  cases op with
  | inl op =>
      have sameEntries := entriesOf_append_left trace op answer
      have nowHeld := heldKeys_append_left trace op answer
      cases op with
      | isSpent key =>
          rw [show (spentAction ⟨.isSpent key, answer⟩).apply
            (heldKeys trace) = heldKeys trace from rfl] at nowHeld
          exact ⟨by rw [nowHeld]; exact kept.backed,
            by rw [sameEntries, nowHeld]; exact kept.entries⟩
      | spend key =>
          refine ⟨?_, .inl (sameEntries.trans allowed.1)⟩
          intro other member
          rw [nowHeld] at member
          have split : other = key ∨ other ∈ heldKeys trace := by
            cases answer with
            | error error => exact .inr member
            | ok fresh =>
                cases fresh with
                | false => exact .inr member
                | true => exact member
          rcases split with rfl | member
          · exact allowed.2
          · exact kept.backed other member
      | unspend key =>
          refine ⟨?_, .inl (sameEntries.trans allowed.1)⟩
          intro other member
          rw [nowHeld] at member
          apply kept.backed
          cases answer with
          | error error => exact member
          | ok done => exact member.1
  | inr op =>
      have nowHeld := heldKeys_append_right trace op answer
      refine ⟨by rw [nowHeld]; exact kept.backed, ?_⟩
      rw [nowHeld]
      cases op with
      | record entry =>
          obtain ⟨noEntry, order, required, backs, rfl, holds⟩ := allowed
          refine .inr ⟨order, required, backs, ?_, holds⟩
          have appended : entriesOf (trace ++ [⟨.inr (.record (ledgerEntry P
              call.gateway order required)), answer⟩]) =
                entriesOf trace ++ [ledgerEntry P call.gateway order required] :=
            List.filterMap_append
          rw [appended, noEntry, List.nil_append]
      | _ =>
          have same : ∀ event, recorded event = none →
              entriesOf (trace ++ [event]) = entriesOf trace := by
            intro event silent
            simp [entriesOf, silent]
          rw [same _ rfl]
          exact kept.entries

end

section

variable {ι : Type} [DecidableEq ι]

/-- The entries that were recorded, each with its request. -/
def records (log : List (ι × Event GatewaySig)) : List (ι × LedgerEntry) :=
  log.filterMap fun entry =>
    (recorded entry.2).map fun written => (entry.1, written)

theorem records_of (log : List (ι × Event GatewaySig)) (i : ι) :
    (records log).filter (fun record => record.1 = i) =
      (entriesOf (localTrace log i)).map fun entry => (i, entry) := by
  induction log with
  | nil => rfl
  | cons entry rest induction =>
      obtain ⟨j, event⟩ := entry
      unfold records entriesOf localTrace at *
      by_cases same : j = i
      · subst same
        cases written : recorded event <;> simp [written, induction]
      · cases written : recorded event <;> simp [written, same, induction]

abbrev GatewayPool (ι : Type) := Pool GatewaySig PyExc Response Books ι

/-- The keys that a request holds according to the log. -/
def GatewayPool.holds (pool : GatewayPool ι) (i : ι) : Set Text :=
  heldKeys (localTrace pool.log i)

/-- The order of the call is to be paid with vouchers. -/
def paysByVoucher (call : GatewayCall) : Bool :=
  match admission call.gateway call.request with
  | .ok (.ok order) => (order.payment.get "scheme").isStr "pic"
  | _ => false

/-- The entries for payments with vouchers. -/
def picRecords (calls : ι → GatewayCall)
    (log : List (ι × Event GatewaySig)) : List (ι × LedgerEntry) :=
  (records log).filter fun record => paysByVoucher (calls record.1)

/-- The denomination of a voucher that the call presents. -/
def presentedValue (call : GatewayCall) (id : Text) : ℚ :=
  match admission call.gateway call.request with
  | .ok (.ok order) =>
      if (order.payment.get "scheme").isStr "pic" then
        ((((order.payment.get "vouchers").asList.getD []).find? fun voucher =>
          voucherId voucher = some id).bind Json.asDict).elim 0 faceValue
      else 0
  | _ => 0

open Classical in
/-- The denomination of a spent voucher, as the request that spent it presents
it. -/
noncomputable def spentValue (calls : ι → GatewayCall) (pool : GatewayPool ι)
    (id : Text) : ℚ :=
  if holder : ∃ i, id ∈ pool.holds i then
    presentedValue (calls holder.choose) id
  else 0

/-- The number that a price stands for. -/
def StatesAmount (price : Text) (level : WithBot ℚ) : Prop :=
  ∃ amount, Decimal.parse price = .ok amount ∧ amount.bounded = some level

/-- **The accounts balance.** -/
structure Balanced (calls : ι → GatewayCall) (pool : GatewayPool ι) :
    Prop where
  ledger : pool.store.ledger = (records pool.log).map (·.2)
  disjoint : (picRecords calls pool.log).Pairwise fun first second =>
    first.2.refs.Disjoint second.2.refs
  spent : ∀ record ∈ picRecords calls pool.log, ∀ ref ∈ record.2.refs,
    ref ∈ pool.store.spent
  answered : ∀ i response, (pool.thread i).Finished (.ok response) →
    response.status = 200 →
      ∃ entry receipt,
        (records pool.log).filter (fun record => record.1 = i) =
          [(i, entry)] ∧
        response.content.get "sip_receipt" = .obj receipt ∧
        Dict.get receipt "price_amount" = .str entry.amount ∧
        Dict.get receipt "price_units" = .str entry.unit
  covered : ∃ levels, List.Forall₂ (fun record level =>
      StatesAmount record.2.amount level) (picRecords calls pool.log) levels ∧
    levels.sum ≤ ((∑ id ∈ pool.store.spent, spentValue calls pool id : ℚ) :
      WithBot ℚ)

private theorem voucherId_obj {voucher : Dict} {id : Text}
    (identified : voucher.get "voucher_id" = .str id) :
    voucherId (.obj voucher) = some id := by
  simp [voucherId, Json.asDict, identified, Json.asStr]

private theorem find_voucher {batch : List (Text × Dict)}
    (identified : ∀ entry ∈ batch, entry.2.get "voucher_id" = .str entry.1)
    (distinct : (batch.map (·.1)).Nodup) {entry : Text × Dict}
    (member : entry ∈ batch) :
    (batch.map fun entry => Json.obj entry.2).find?
      (fun voucher => voucherId voucher = some entry.1) =
        some (.obj entry.2) := by
  induction batch with
  | nil => cases member
  | cons first rest induction =>
      obtain ⟨firstId, restIds⟩ := List.forall_mem_cons.mp identified
      obtain ⟨fresh, distinct⟩ := List.nodup_cons.mp distinct
      rw [List.map_cons, List.find?_cons, voucherId_obj firstId]
      by_cases same : first.1 = entry.1
      · rcases List.mem_cons.mp member with rfl | later
        · simp
        · refine absurd ?_ fresh
          show first.1 ∈ rest.map (·.1)
          rw [same]
          exact List.mem_map_of_mem later
      · rcases List.mem_cons.mp member with rfl | later
        · exact absurd rfl same
        · simp [same, induction restIds distinct later]

variable {P : Platform} {call : GatewayCall} {order : Order} {required : Text}

/-- A batch that backs a price is presented with its vouchers, and covers the
price. -/
theorem Backs.batch (sound : P.SchemaSound) (exact : P.precision = .exact)
    (backs : Backs P call order required)
    (isPic : (order.payment.get "scheme").isStr "pic" = true) :
    ∃ batch, BatchOf order.payment batch ∧
      (∀ entry ∈ batch, presentedValue call entry.1 = faceValue entry.2 ∧
        0 ≤ faceValue entry.2) ∧
      PriceCovered required
        (batch.map fun entry => faceValue entry.2).sum := by
  obtain ⟨moment, settled⟩ := backs.settled
  unfold settles at settled
  rw [if_pos isPic] at settled
  obtain ⟨batch, isBatch, settled⟩ := picSettles_iff.mp settled
  obtain ⟨accepted, covered⟩ := (batchSettles_iff sound exact).mp settled
  refine ⟨batch, isBatch, ?_, covered⟩
  intro entry member
  constructor
  · have found := find_voucher isBatch.identified isBatch.distinct member
    unfold presentedValue
    rw [backs.admitted]
    dsimp only
    rw [if_pos isPic, isBatch.listed, Json.asList, Option.getD_some, found]
    rfl
  · exact faceValue_nonneg sound (accepted entry member).1

theorem Backs.paysByVoucher (backs : Backs P call order required) :
    paysByVoucher call = (order.payment.get "scheme").isStr "pic" := by
  unfold SipGateway.paysByVoucher
  rw [backs.admitted]

theorem presentedValue_nonneg (sound : P.SchemaSound)
    (exact : P.precision = .exact) {id : Text}
    (backed : id ∈ backedKeys P call) : 0 ≤ presentedValue call id := by
  obtain ⟨order, required, backs, member⟩ := backed
  cases isPic : (order.payment.get "scheme").isStr "pic" with
  | true =>
      obtain ⟨batch, isBatch, valued, _⟩ := backs.batch sound exact isPic
      rw [isBatch.paymentKeys isPic] at member
      obtain ⟨entry, inBatch, rfl⟩ := List.mem_map.mp member
      rw [(valued entry inBatch).1]
      exact (valued entry inBatch).2
  | false =>
      unfold presentedValue
      rw [backs.admitted]
      simp [isPic]

theorem paymentRefs_pic {payment : Dict}
    (isPic : (payment.get "scheme").isStr "pic" = true) :
    paymentRefs payment = paymentKeys payment := by
  unfold paymentRefs paymentKeys
  rw [if_pos isPic, if_pos isPic]

/-- The price of a backed order is at most the value of the vouchers that it
presents. -/
theorem Backs.covered (sound : P.SchemaSound) (exact : P.precision = .exact)
    (backs : Backs P call order required)
    (isPic : (order.payment.get "scheme").isStr "pic" = true) :
    ∃ level, StatesAmount required level ∧
      level ≤ ((∑ id ∈ (paymentKeys order.payment).toFinset,
        presentedValue call id : ℚ) : WithBot ℚ) := by
  obtain ⟨batch, isBatch, valued, amount, level, parsed, bounds, covers⟩ :=
    backs.batch sound exact isPic
  refine ⟨level, ⟨amount, parsed, bounds⟩, ?_⟩
  have sameValue : (batch.map fun entry => faceValue entry.2) =
      (batch.map (·.1)).map (presentedValue call) := by
    rw [List.map_map]
    apply List.map_congr_left
    intro entry member
    exact (valued entry member).1.symm
  rw [isBatch.paymentKeys isPic, List.sum_toFinset _ isBatch.distinct,
    ← sameValue]
  exact covers

theorem exists_levels {α : Type} {items : List α} {states : α → WithBot ℚ → Prop}
    {bound : α → ℚ}
    (each : ∀ item ∈ items, ∃ level, states item level ∧
      level ≤ (bound item : WithBot ℚ)) :
    ∃ levels, List.Forall₂ states items levels ∧
      levels.sum ≤ ((items.map bound).sum : ℚ) := by
  induction items with
  | nil => exact ⟨[], .nil, le_refl _⟩
  | cons item rest induction =>
      obtain ⟨first, others⟩ := List.forall_mem_cons.mp each
      obtain ⟨level, stated, below⟩ := first
      obtain ⟨levels, later, sumBelow⟩ := induction others
      refine ⟨level :: levels, .cons stated later, ?_⟩
      rw [List.sum_cons, List.map_cons, List.sum_cons, WithBot.coe_add]
      exact add_le_add below sumBelow

variable {calls : ι → GatewayCall} {keys : Finset Text}
  {pool : GatewayPool ι}

/-- A run of the requests from an empty ledger. -/
def Runs (P : Platform) (calls : ι → GatewayCall) (keys : Finset Text)
    (pool : GatewayPool ι) : Prop :=
  Pool.Reaches booksWorld
    (Pool.start ⟨keys, []⟩ fun i => (calls i).program P) pool

variable (charging : ∀ i, (calls i).Charging) (run : Runs P calls keys pool)

include charging run

theorem run_partition : Partition (↑keys) (↑pool.store.spent) pool.holds :=
  Pool.Reaches.partition booksWorld_exclusive
    (fun i => booksRule_releases P (calls i)) booksWorld_answered
    (fun i => wp_program P (charging i)) run

theorem run_kept (i : ι) : BooksKept P (calls i) (localTrace pool.log i) := by
  have kept := (Pool.Reaches.local_wp booksWorld_answered (ruleKept_nil _)
    (fun i => wp_program P (charging i)) run).1
  apply kept.local_invariant
  · intro j
    exact ⟨fun _ member => absurd member (Set.notMem_empty _), .inl rfl⟩
  · intro j trace event
    exact booksKept_append

/-- A request that has an entry has recorded only this one, for an order that
backs it and whose keys it holds. -/
theorem run_record {record : ι × LedgerEntry}
    (member : record ∈ records pool.log) :
    ∃ order required, Backs P (calls record.1) order required ∧
      (records pool.log).filter (fun other => other.1 = record.1) =
        [record] ∧
      record.2 = ledgerEntry P (calls record.1).gateway order required ∧
      pool.holds record.1 = {key | key ∈ paymentKeys order.payment} := by
  have ofRequest := records_of pool.log record.1
  have selected : record ∈
      (records pool.log).filter fun other => other.1 = record.1 :=
    List.mem_filter.mpr ⟨member, by simp⟩
  rcases (run_kept charging run record.1).entries with none |
    ⟨order, required, backs, one, holds⟩
  · rw [ofRequest, none] at selected
    cases selected
  · rw [one] at ofRequest
    rw [ofRequest] at selected
    have same := List.mem_singleton.mp selected
    refine ⟨order, required, backs, ?_, congrArg Prod.snd same, holds⟩
    rw [ofRequest, List.map_singleton]
    exact congrArg (fun record => [record]) same.symm

omit charging in
theorem run_ledger :
    pool.store.ledger = (records pool.log).map (·.2) := by
  refine @Pool.Reaches.store_invariant GatewaySig PyExc Response Books ι _
    booksWorld _ pool (fun books log => books.ledger = (records log).map (·.2))
    rfl ?_ run
  intro books log i op answer after kept stepped
  have appended : ∀ event, records (log ++ [(i, event)]) =
      records log ++ ((recorded event).map fun entry => (i, entry)).toList := by
    intro event
    unfold records
    rw [List.filterMap_append]
    cases written : recorded event <;> simp [written]
  rw [appended, List.map_append, ← kept]
  cases op with
  | inl op =>
      rw [stepped.2]
      exact (List.append_nil _).symm
  | inr op =>
      cases op with
      | record entry => exact (Prod.mk.inj stepped.1).2
      | _ =>
          obtain rfl : after = books := stepped
          exact (List.append_nil _).symm

/-- Two entries belong to two requests. -/
theorem run_distinct : ((records pool.log).map (·.1)).Nodup := by
  rw [List.nodup_iff_count_le_one]
  intro i
  have counted : ((records pool.log).map (·.1)).count i =
      ((records pool.log).filter fun record => record.1 = i).length := by
    rw [List.count, List.countP_map, List.countP_eq_length_filter]
    rfl
  rw [counted]
  by_cases has : ∃ record ∈ records pool.log, record.1 = i
  · obtain ⟨record, member, rfl⟩ := has
    obtain ⟨_, _, _, single, _⟩ := run_record charging run member
    simp [single]
  · rw [List.filter_eq_nil_iff.mpr]
    · exact Nat.zero_le _
    · intro record member same
      exact has ⟨record, member, of_decide_eq_true same⟩

/-- An entry for vouchers cites the keys of its request, which it holds. -/
theorem run_picRecord {record : ι × LedgerEntry}
    (member : record ∈ picRecords calls pool.log) :
    ∃ order required, Backs P (calls record.1) order required ∧
      (order.payment.get "scheme").isStr "pic" = true ∧
      record.2.amount = required ∧
      record.2.refs = paymentKeys order.payment ∧
      ∀ ref, ref ∈ record.2.refs ↔ ref ∈ pool.holds record.1 := by
  obtain ⟨inRecords, isPic⟩ := List.mem_filter.mp member
  obtain ⟨order, required, backs, _, entry, holds⟩ :=
    run_record charging run inRecords
  rw [backs.paysByVoucher] at isPic
  have refs : record.2.refs = paymentKeys order.payment := by
    rw [entry]
    exact paymentRefs_pic isPic
  refine ⟨order, required, backs, isPic, by rw [entry]; rfl, refs, ?_⟩
  intro ref
  rw [refs, holds]
  rfl

theorem run_refs_disjoint {first second : ι × LedgerEntry}
    (inFirst : first ∈ picRecords calls pool.log)
    (inSecond : second ∈ picRecords calls pool.log)
    (different : first.1 ≠ second.1) :
    first.2.refs.Disjoint second.2.refs := by
  obtain ⟨_, _, _, _, _, _, firstHolds⟩ := run_picRecord charging run inFirst
  obtain ⟨_, _, _, _, _, _, secondHolds⟩ := run_picRecord charging run inSecond
  intro ref left right
  exact different ((run_partition charging run).disjoint _ _ ref
    ((firstHolds ref).mp left) ((secondHolds ref).mp right))

theorem run_refs_spent {record : ι × LedgerEntry}
    (member : record ∈ picRecords calls pool.log) {ref : Text}
    (cited : ref ∈ record.2.refs) : ref ∈ pool.store.spent := by
  obtain ⟨_, _, _, _, _, _, holds⟩ := run_picRecord charging run member
  have covers := (run_partition charging run).covers ref
  exact Finset.mem_coe.mp (covers.mpr (.inr ⟨_, (holds ref).mp cited⟩))

theorem spentValue_held {i : ι} {id : Text} (held : id ∈ pool.holds i) :
    spentValue calls pool id = presentedValue (calls i) id := by
  have holder : ∃ i, id ∈ pool.holds i := ⟨i, held⟩
  have same := (run_partition charging run).disjoint _ _ id
    holder.choose_spec held
  unfold spentValue
  rw [dif_pos holder, same]

theorem spentValue_nonneg (sound : P.SchemaSound)
    (exact : P.precision = .exact) (id : Text) :
    0 ≤ spentValue calls pool id := by
  by_cases holder : ∃ i, id ∈ pool.holds i
  · obtain ⟨i, held⟩ := holder
    rw [spentValue_held charging run held]
    exact presentedValue_nonneg sound exact
      ((run_kept charging run i).backed id held)
  · unfold spentValue
    rw [dif_neg holder]

/-- The price of an entry is at most the value of the vouchers it cites. -/
theorem run_record_covered (sound : P.SchemaSound)
    (exact : P.precision = .exact) {record : ι × LedgerEntry}
    (member : record ∈ picRecords calls pool.log) :
    ∃ level, StatesAmount record.2.amount level ∧
      level ≤ ((∑ id ∈ record.2.refs.toFinset,
        spentValue calls pool id : ℚ) : WithBot ℚ) := by
  obtain ⟨order, required, backs, isPic, amount, refs, holds⟩ :=
    run_picRecord charging run member
  obtain ⟨level, stated, below⟩ := backs.covered sound exact isPic
  refine ⟨level, amount ▸ stated, ?_⟩
  have sameValues : ∑ id ∈ record.2.refs.toFinset, spentValue calls pool id =
      ∑ id ∈ (paymentKeys order.payment).toFinset,
        presentedValue (calls record.1) id := by
    rw [← refs]
    apply Finset.sum_congr rfl
    intro id cited
    exact spentValue_held charging run
      ((holds id).mp (List.mem_toFinset.mp cited))
  rw [sameValues]
  exact below

theorem run_records_value (sound : P.SchemaSound)
    (exact : P.precision = .exact) :
    ((picRecords calls pool.log).map fun record =>
      ∑ id ∈ record.2.refs.toFinset, spentValue calls pool id).sum ≤
        ∑ id ∈ pool.store.spent, spentValue calls pool id := by
  have distinct := run_distinct charging run
  have nodup : (picRecords calls pool.log).Nodup :=
    (List.Nodup.of_map _ distinct).filter _
  have different : ∀ first ∈ picRecords calls pool.log,
      ∀ second ∈ picRecords calls pool.log, first ≠ second →
        first.1 ≠ second.1 := by
    intro first inFirst second inSecond notSame sameRequest
    exact notSame (List.inj_on_of_nodup_map distinct
      (List.mem_of_mem_filter inFirst) (List.mem_of_mem_filter inSecond)
      sameRequest)
  rw [← List.sum_toFinset _ nodup, ← Finset.sum_biUnion]
  · apply Finset.sum_le_sum_of_subset_of_nonneg
    · intro id inUnion
      obtain ⟨record, member, cited⟩ := Finset.mem_biUnion.mp inUnion
      exact run_refs_spent charging run (List.mem_toFinset.mp member)
        (List.mem_toFinset.mp cited)
    · intro id _ _
      exact spentValue_nonneg charging run sound exact id
  · intro first inFirst second inSecond notSame
    have inFirst := List.mem_toFinset.mp (Finset.mem_coe.mp inFirst)
    have inSecond := List.mem_toFinset.mp (Finset.mem_coe.mp inSecond)
    rw [Function.onFun, Finset.disjoint_left]
    intro id left right
    exact run_refs_disjoint charging run inFirst inSecond
      (different first inFirst second inSecond notSame)
      (List.mem_toFinset.mp left) (List.mem_toFinset.mp right)

private theorem run_answered {i : ι} {response : Response}
    (finished : (pool.thread i).Finished (.ok response))
    (served : response.status = 200) :
    ∃ entry receipt,
      (records pool.log).filter (fun record => record.1 = i) = [(i, entry)] ∧
      response.content.get "sip_receipt" = .obj receipt ∧
      Dict.get receipt "price_amount" = .str entry.amount ∧
      Dict.get receipt "price_units" = .str entry.unit := by
  have booked := Pool.Reaches.finished_post booksWorld_answered
    (fun i => wp_program P (charging i)) (ruleKept_nil _) run finished
  obtain ⟨entry, receipt, one, carried, amount, unit⟩ :=
    booked response rfl served
  refine ⟨entry, receipt, ?_, carried, amount, unit⟩
  rw [records_of, one, List.map_singleton]

/-- **Gateway accounting.** -/
theorem gateway_accounts_balance (sound : P.SchemaSound)
    (exact : P.precision = .exact) : Balanced calls pool where
  ledger := run_ledger run
  disjoint := by
    have distinct := List.pairwise_map.mp (run_distinct charging run)
    refine (distinct.filter _).imp_of_mem ?_
    intro first second inFirst inSecond different
    exact run_refs_disjoint charging run inFirst inSecond different
  spent := fun _ member _ cited => run_refs_spent charging run member cited
  answered := fun _ _ finished served =>
    run_answered charging run finished served
  covered := by
    obtain ⟨levels, stated, below⟩ := exists_levels fun record member =>
      run_record_covered charging run sound exact member
    refine ⟨levels, stated, below.trans ?_⟩
    exact WithBot.coe_le_coe.mpr (run_records_value charging run sound exact)

end

/-- Stores with a fixed clock and a model that answers `ok`. -/
def booksHandler : Handler GatewaySig Books where
  respond := fun books op =>
    match op with
    | .inl op =>
        let response := spentTable.respond books.spent op
        (response.1, { books with spent := response.2 })
    | .inr .now => (answeringHost.clock 0, books)
    | .inr .allow => (true, books)
    | .inr (.chat model messages maxTokens) =>
        (answeringHost.adapter model messages maxTokens, books)
    | .inr (.record entry) =>
        let (saved, ledger) := Ledger.record books.ledger entry (.ok ())
        (saved, { books with ledger })

theorem booksHandler_steps (books : Books) (op : GatewaySig.Op)
    (answer : GatewaySig.Ans op) (after : Books)
    (stepped : booksHandler.world.step books op answer after) :
    booksWorld.step books op answer after := by
  have response : booksHandler.respond books op = (answer, after) := stepped
  cases op with
  | inl op =>
      cases response
      exact ⟨rfl, rfl⟩
  | inr op =>
      cases op with
      | record entry =>
          cases response
          exact ⟨rfl, rfl⟩
      | _ =>
          cases response
          rfl

def twoUnitsBody : Dict :=
  [("voucher_version", .str "sip-ai.voucher.v1"), ("voucher_id", .str firstId),
    ("denomination", .str "2"), ("unit", .str "test"),
    ("issuer_pubkey", .str issuerKey),
    ("issued_at", .str "2026-01-01T00:00:00Z"),
    ("expires_at", .str "2026-02-01T00:00:00Z")]

def twoUnitsSignature : Text :=
  "ed25519:xS2Pkca0THk4Vy1p_AyjN-lzTq3337aOSq1-rQCFurKKUZvtJw8EDqoqp7mTUbQkC1EaG9C3PYuZs06XrrjyCA"

def booksTable : SignatureTable where
  keys := gatewayTable.keys
  signatures := (issuerKey, twoUnitsBody, twoUnitsSignature) ::
    gatewayTable.signatures

def voucherRequest : Request where
  authorization := none
  privacyMode := none
  requestId := none
  body := some (.obj [("model", .str "m"),
    ("messages", .arr [.obj [("role", .str "user"),
      ("content", .str "hi")]]),
    ("max_tokens", .int 1),
    ("sip_payment", .obj (buildPicPayment
      [.obj (twoUnitsBody.set "signature" (.str twoUnitsSignature))]))])

/-- Two requests with the same voucher at a gateway with a ledger. -/
def racingRequests (_ : Bool) : GatewayCall where
  gateway := { payingGateway with
    picIssuers := some [issuerKey], keepsLedger := true }
  request := voucherRequest

/-- Both requests are verified before one of them commits. -/
def racedBooks : GatewayPool Bool :=
  (Pool.start ⟨∅, []⟩ fun second =>
    (racingRequests second).program booksTable.platform).schedule booksHandler
      ((List.replicate 9 [false, true]).flatten)

private theorem racedBooks_outcomes :
    ((racedBooks.thread false).outcome?.map fun outcome =>
        outcome.map (·.status)) = some (.ok 200) ∧
      ((racedBooks.thread true).outcome?.map fun outcome =>
        outcome.map (·.status)) = some (.ok 402) ∧
      racedBooks.store.ledger = [⟨gatewayPubkey, "2", "test", [firstId]⟩] ∧
      racedBooks.store.spent = {firstId} := by
  decide +kernel

theorem gateway_accounts_balance_race :
    Balanced racingRequests racedBooks ∧
      racedBooks.store.ledger = [⟨gatewayPubkey, "2", "test", [firstId]⟩] ∧
      racedBooks.store.spent = {firstId} := by
  have reached := (Pool.reaches_schedule booksHandler
    ((List.replicate 9 [false, true]).flatten)
    (Pool.start ⟨∅, []⟩ fun second =>
      (racingRequests second).program booksTable.platform)).mono
        booksHandler_steps
  exact ⟨gateway_accounts_balance (fun _ => ⟨rfl, rfl⟩) reached
    booksTable.platform_schemaSound rfl, racedBooks_outcomes.2.2⟩

end SovereignInference.SipGateway
