import SovereignInference.SipReputation.Store
import Mathlib.Algebra.BigOperators.Group.List.Basic
import Mathlib.Algebra.Order.Field.Rat
import Mathlib.Tactic.Linarith
import Mathlib.Tactic.NormNum

/-!
# Reputation as a fold of outcomes

The file holds, for every provider, the tally of its own outcomes.  Without
rounding the score is then a function of these outcomes alone, in any order.
-/

namespace SovereignInference.SipReputation

open Python

/-- The outcomes of one provider. -/
def ownOf {K : Type} (key : Text) (seen : List (Outcome K)) :
    List (Outcome K) :=
  seen.filter (·.providerPubkey = key)

/-- The counters of these outcomes. -/
def tally {K : Type} [Zero K] [Add K] (own : List (Outcome K)) : Entry K :=
  own.foldl Entry.add Entry.empty

section File

variable {K : Type}

/-- Distinct keys without surrogate pairs are found as they were written. -/
theorem lookup_foldl_insert {written : List (Sigma fun _ : Text => Entry K)}
    (distinct : written.NodupKeys)
    (unpaired : ∀ entry ∈ written, Unpaired entry.1)
    (kept : Entries K) (key : Text) :
    (written.foldl (fun kept entry => kept.insert (rejoined entry.1) entry.2)
      kept).lookup key = (written.dlookup key).or (kept.lookup key) := by
  induction written generalizing kept with
  | nil => rfl
  | cons entry rest induction =>
      obtain ⟨name, counters⟩ := entry
      obtain ⟨first, others⟩ := List.forall_mem_cons.mp unpaired
      obtain ⟨apart, distinct⟩ := List.nodupKeys_cons.mp distinct
      have same : rejoined name = name := (rejoined_eq_iff name).mpr first
      rw [List.foldl_cons, induction distinct others, same]
      by_cases here : key = name
      · subst here
        rw [List.dlookup_eq_none.mpr apart, AList.lookup_insert,
          List.dlookup_cons_eq]
        rfl
      · rw [AList.lookup_insert_ne here, List.dlookup_cons_ne _ _ here]

theorem lookup_reread {data : Entries K}
    (unpaired : ∀ key ∈ data, Unpaired key) (key : Text) :
    (reread data).lookup key = data.lookup key := by
  have sorted := List.perm_insertionSort
    (fun a b : Sigma fun _ : Text => Entry K => a.1 ≤ b.1) data.entries
  have distinct := (List.perm_nodupKeys sorted).mpr data.nodupKeys
  have known : ∀ entry ∈ data.entries.insertionSort fun a b => a.1 ≤ b.1,
      Unpaired entry.1 := by
    intro entry member
    apply unpaired
    exact List.mem_keys_of_mem (sorted.mem_iff.mp member)
  unfold reread
  rw [lookup_foldl_insert distinct known, List.perm_dlookup key distinct sorted,
    AList.lookup_empty, Option.or_none]
  rfl

variable [Zero K] [Add K] {file : Option (Entries K)}
  {seen : List (Outcome K)}

/-- The file holds the tally of each provider's outcomes. -/
structure Tallies (file : Option (Entries K)) (seen : List (Outcome K)) :
    Prop where
  unpaired : ∀ key ∈ load file, Unpaired key
  counts : ∀ key, (load file).lookup key =
    if ownOf key seen = [] then none else some (tally (ownOf key seen))

theorem tallies_fresh (fresh : load file = ∅) : Tallies file [] := by
  constructor
  · intro key member
    rw [fresh] at member
    exact absurd member (AList.notMem_empty key)
  · intro key
    rw [fresh]
    rfl

omit [Zero K] [Add K] in
theorem ownOf_append (key : Text) (seen later : List (Outcome K)) :
    ownOf key (seen ++ later) = ownOf key seen ++ ownOf key later :=
  List.filter_append seen later

/-- One more outcome is counted for its provider. -/
theorem Tallies.record (tallies : Tallies file seen) {outcome : Outcome K}
    (unpaired : Unpaired outcome.providerPubkey) :
    Tallies (record file outcome) (seen ++ [outcome]) := by
  have known : ∀ counters, ∀ key ∈
      (load file).insert outcome.providerPubkey counters, Unpaired key := by
    intro counters key member
    rcases AList.mem_insert _ |>.mp member with rfl | member
    · exact unpaired
    · exact tallies.unpaired key member
  constructor
  · intro key member
    have found := AList.lookup_isSome.mpr member
    change ((reread _).lookup key).isSome = true at found
    rw [lookup_reread (known _)] at found
    exact known _ key (AList.lookup_isSome.mp found)
  · intro key
    change (reread _).lookup key = _
    rw [lookup_reread (known _), ownOf_append, tallies.counts]
    by_cases here : key = outcome.providerPubkey
    · subst here
      have last : ownOf outcome.providerPubkey [outcome] = [outcome] := by
        simp [ownOf]
      have counted : ownOf outcome.providerPubkey seen ++ [outcome] ≠ [] := by
        simp
      rw [AList.lookup_insert, last, if_neg counted]
      unfold tally
      rw [List.foldl_append]
      split_ifs with none
      · rw [none]
        rfl
      · rfl
    · have noneLast : ownOf key [outcome] = [] := by
        simp [ownOf, Ne.symm here]
      rw [AList.lookup_insert_ne here, tallies.counts, noneLast,
        List.append_nil]

/-- **Every history leaves the tallies of what it has recorded.** -/
theorem tallies_run (tallies : Tallies file seen)
    {events : List (StoreEvent K)}
    (unpaired : ∀ outcome ∈ outcomes events,
      Unpaired outcome.providerPubkey) :
    Tallies (run file events) (seen ++ outcomes events) := by
  induction events generalizing file seen with
  | nil =>
      rw [outcomes, List.filterMap_nil, List.append_nil]
      exact tallies
  | cons event rest induction =>
      cases event with
      | recorded outcome =>
          have all : outcomes (.recorded outcome :: rest) =
              outcome :: outcomes rest := rfl
          rw [all] at unpaired ⊢
          obtain ⟨first, others⟩ := List.forall_mem_cons.mp unpaired
          have later := induction (tallies.record first) others
          rw [List.append_assoc] at later
          exact later
      | reopened => exact induction tallies unpaired

end File

section Counters

variable {K : Type} [AddMonoid K]

/-- The latencies that were recorded. -/
def latencies (own : List (Outcome K)) : List K :=
  own.filterMap (·.latencyMs)

/-- What further outcomes add to counters. -/
structure Adds (own : List (Outcome K)) (before after : Entry K) : Prop where
  total : after.total = before.total + own.length
  success : after.success = before.success + own.countP (·.success)
  receiptValid : after.receiptValid =
    before.receiptValid + own.countP (·.receiptValid)
  latencySum : after.latencySum = before.latencySum + (latencies own).sum
  latencyN : after.latencyN = before.latencyN + (latencies own).length

omit [AddMonoid K] in
private theorem toNat_eq (value : Bool) :
    value.toNat = if value = true then 1 else 0 := by
  cases value <;> rfl

theorem adds_foldl (own : List (Outcome K)) (before : Entry K) :
    Adds own before (own.foldl Entry.add before) := by
  induction own generalizing before with
  | nil => constructor <;> simp [latencies]
  | cons outcome rest induction =>
      have later := induction (before.add outcome)
      rw [List.foldl_cons]
      constructor
      · rw [later.total, List.length_cons]
        simp only [Entry.add]
        omega
      · rw [later.success, List.countP_cons, ← toNat_eq]
        simp only [Entry.add]
        omega
      · rw [later.receiptValid, List.countP_cons, ← toNat_eq]
        simp only [Entry.add]
        omega
      · rw [later.latencySum]
        cases timed : outcome.latencyMs with
        | none => simp [latencies, Entry.add, timed]
        | some latency => simp [latencies, Entry.add, timed, add_assoc]
      · rw [later.latencyN]
        cases timed : outcome.latencyMs with
        | none => simp [latencies, Entry.add, timed]
        | some latency =>
            simp [latencies, Entry.add, timed]
            omega

end Counters

section Exact

variable {file : Option (Entries ℚ)} {events : List (StoreEvent ℚ)}
  {own other : List (Outcome ℚ)}

/-- The share of outcomes that satisfy a condition. -/
def rate (holds : Outcome ℚ → Bool) (own : List (Outcome ℚ)) : ℚ :=
  own.countP holds / own.length

/-- The reputation that a provider's own outcomes give. -/
def summary (key : Text) (own : List (Outcome ℚ)) : ReputationScore ℚ where
  providerPubkey := key
  samples := own.length
  successRate := rate (·.success) own
  receiptValidRate := rate (·.receiptValid) own
  avgLatencyMs :=
    if latencies own = [] then none
    else some ((latencies own).sum / (latencies own).length)
  score :=
    if own = [] then 1 / 2
    else 7 / 10 * rate (·.success) own + 3 / 10 * rate (·.receiptValid) own

/-- **The score of a provider is the summary of its own outcomes.** -/
theorem score_run (fresh : load file = ∅)
    (unpaired : ∀ outcome ∈ outcomes events,
      Unpaired outcome.providerPubkey) (key : Text) :
    score exactNumbers (run file events) key =
      .ok (summary key (ownOf key (outcomes events))) := by
  have tallies := tallies_run (tallies_fresh fresh) unpaired
  rw [List.nil_append] at tallies
  unfold score
  rw [tallies.counts]
  by_cases none : ownOf key (outcomes events) = []
  · rw [if_pos none, none]
    simp [summary, rate, latencies, exactNumbers]
  · rw [if_neg none]
    have adds := adds_foldl (ownOf key (outcomes events))
      (Entry.empty : Entry ℚ)
    change Adds _ Entry.empty (tally (ownOf key (outcomes events))) at adds
    generalize tally (ownOf key (outcomes events)) = counters at adds
    generalize ownOf key (outcomes events) = own at adds none
    obtain ⟨total, success, receiptValid, latencySum, latencyN⟩ := adds
    simp only [Entry.empty, zero_add] at total success receiptValid latencySum
    simp only [Entry.empty, zero_add] at latencyN
    have counted : counters.total ≠ 0 := by
      rw [total]
      exact mt List.length_eq_zero_iff.mp none
    simp only [if_neg counted]
    unfold scoreEntry averageLatency summary
    rw [latencyN, if_neg none]
    by_cases untimed : latencies own = []
    · have zero : (latencies own).length = 0 :=
        List.length_eq_zero_iff.mpr untimed
      rw [if_pos zero, if_pos untimed]
      simp [exactNumbers, rate, total, success, receiptValid]
    · have some : (latencies own).length ≠ 0 :=
        mt List.length_eq_zero_iff.mp untimed
      rw [if_neg some, if_neg untimed]
      simp [exactNumbers, rate, total, success, receiptValid, latencySum]

private theorem rate_unit (holds : Outcome ℚ → Bool) (own : List (Outcome ℚ)) :
    0 ≤ rate holds own ∧ rate holds own ≤ 1 := by
  have atMost : (own.countP holds : ℚ) ≤ own.length := by
    exact_mod_cast List.countP_le_length
  unfold rate
  exact ⟨div_nonneg (Nat.cast_nonneg _) (Nat.cast_nonneg _),
    div_le_one_of_le₀ atMost (Nat.cast_nonneg _)⟩

theorem summary_unit (key : Text) (own : List (Outcome ℚ)) :
    0 ≤ (summary key own).score ∧ (summary key own).score ≤ 1 := by
  obtain ⟨first, second⟩ := rate_unit (·.success) own
  obtain ⟨third, fourth⟩ := rate_unit (·.receiptValid) own
  simp only [summary]
  split_ifs
  · norm_num
  · constructor <;> linarith

/-- The order of outcomes makes no difference. -/
theorem summary_perm (key : Text) (perm : own.Perm other) :
    summary key own = summary key other := by
  have times : (latencies own).Perm (latencies other) := perm.filterMap _
  have untimed : latencies own = [] ↔ latencies other = [] := by
    rw [← List.length_eq_zero_iff, times.length_eq, List.length_eq_zero_iff]
  have none : own = [] ↔ other = [] := by
    rw [← List.length_eq_zero_iff, perm.length_eq, List.length_eq_zero_iff]
  unfold summary rate
  simp only [perm.length_eq, perm.countP_eq, times.length_eq, times.sum_eq,
    untimed, none]

/-- As many outcomes, as many valid receipts and no fewer successes. -/
theorem summary_mono (key : Text) (length : own.length = other.length)
    (receipts : own.countP (·.receiptValid) =
      other.countP (·.receiptValid))
    (successes : own.countP (·.success) ≤ other.countP (·.success)) :
    (summary key own).score ≤ (summary key other).score := by
  have none : own = [] ↔ other = [] := by
    rw [← List.length_eq_zero_iff, length, List.length_eq_zero_iff]
  have higher : rate (·.success) own ≤ rate (·.success) other := by
    unfold rate
    rw [length]
    have order : (own.countP (·.success) : ℚ) ≤
        other.countP (·.success) := by
      exact_mod_cast successes
    exact div_le_div_of_nonneg_right order (by positivity)
  have same : rate (·.receiptValid) own = rate (·.receiptValid) other := by
    unfold rate
    rw [length, receipts]
  simp only [summary, none, same]
  split_ifs
  · exact le_refl _
  · linarith

/-- An outcome in the middle of a history. -/
theorem ownOf_middle (key : Text) (before after : List (StoreEvent ℚ))
    (outcome : Outcome ℚ) :
    ownOf key (outcomes (before ++ .recorded outcome :: after)) =
      ownOf key (outcomes before) ++ (ownOf key [outcome] ++
        ownOf key (outcomes after)) := by
  have all : outcomes (before ++ .recorded outcome :: after) =
      outcomes before ++ ([outcome] ++ outcomes after) := by
    unfold outcomes
    rw [List.filterMap_append]
    rfl
  rw [all, ownOf_append, ownOf_append]

/-- The failure of one outcome turned into a success. -/
def Outcome.succeeded {K : Type} (outcome : Outcome K) : Outcome K :=
  { outcome with success := true }

private theorem summary_succeeded (key : Text)
    (before after : List (StoreEvent ℚ)) (outcome : Outcome ℚ) :
    (summary key (ownOf key
        (outcomes (before ++ .recorded outcome :: after)))).score ≤
      (summary key (ownOf key
        (outcomes (before ++ .recorded outcome.succeeded :: after)))).score := by
  rw [ownOf_middle, ownOf_middle]
  by_cases mine : outcome.providerPubkey = key
  · have one : ownOf key [outcome] = [outcome] := by simp [ownOf, mine]
    have one' : ownOf key [outcome.succeeded] = [outcome.succeeded] := by
      simp [ownOf, Outcome.succeeded, mine]
    rw [one, one']
    apply summary_mono
    · simp
    · simp [Outcome.succeeded, List.countP_cons]
    · simp only [List.countP_append, List.countP_cons, List.countP_nil]
      simp only [Outcome.succeeded, if_true]
      split_ifs <;> omega
  · have none : ownOf key [outcome] = [] := by simp [ownOf, mine]
    have none' : ownOf key [outcome.succeeded] = [] := by
      simp [ownOf, Outcome.succeeded, mine]
    rw [none, none']

/-- **The reputation of a provider is a fold of its own outcomes**, which their
order does not change and a success in place of a failure never lowers. -/
theorem reputation_is_fold (fresh : load file = ∅)
    (unpaired : ∀ outcome ∈ outcomes events,
      Unpaired outcome.providerPubkey) (key : Text) :
    score exactNumbers (run file events) key =
        .ok (summary key (ownOf key (outcomes events))) ∧
      (0 ≤ (summary key (ownOf key (outcomes events))).score ∧
        (summary key (ownOf key (outcomes events))).score ≤ 1) ∧
      (∀ file' events', load file' = ∅ →
        (∀ outcome ∈ outcomes events', Unpaired outcome.providerPubkey) →
        (ownOf key (outcomes events')).Perm (ownOf key (outcomes events)) →
          score exactNumbers (run file' events') key =
            score exactNumbers (run file events) key) ∧
      ∀ before outcome after, events = before ++ .recorded outcome :: after →
        ∃ raised, score exactNumbers
            (run file (before ++ .recorded outcome.succeeded :: after)) key =
              .ok raised ∧
          (summary key (ownOf key (outcomes events))).score ≤ raised.score := by
  refine ⟨score_run fresh unpaired key, summary_unit key _, ?_, ?_⟩
  · intro file' events' fresh' unpaired' perm
    rw [score_run fresh' unpaired', score_run fresh unpaired,
      summary_perm key perm]
  · rintro before outcome after rfl
    refine ⟨_, score_run fresh ?_ key, summary_succeeded key _ _ _⟩
    intro other member
    have all : ∀ one : Outcome ℚ,
        outcomes (before ++ .recorded one :: after) =
          outcomes before ++ one :: outcomes after := by
      intro one
      unfold outcomes
      rw [List.filterMap_append]
      rfl
    rw [all] at unpaired member
    rcases List.mem_append.mp member with inBefore | rest
    · exact unpaired other (List.mem_append_left _ inBefore)
    · rcases List.mem_cons.mp rest with rfl | inAfter
      · exact unpaired outcome (by simp)
      · exact unpaired other (by simp [inAfter])

/-- An outcome without a latency. -/
def plainOutcome (key : Text) (success : Bool) : StoreEvent ℚ :=
  .recorded ⟨key, success, none, true⟩

theorem reputation_is_fold_two :
    score exactNumbers (run none [plainOutcome "p" true, .reopened,
        plainOutcome "q" false, plainOutcome "p" false]) "p" =
      .ok ⟨"p", 2, 1 / 2, 1, none, 65 / 100⟩ := by
  have isFold := (@reputation_is_fold none [plainOutcome "p" true, .reopened,
    plainOutcome "q" false, plainOutcome "p" false] rfl
    (by decide +kernel) "p").1
  rw [isFold]
  decide +kernel

/-- Two successes out of seven, all with valid receipts, score one half; and
an outcome of a key with a surrogate pair is not found again. -/
theorem half_of_seven_and_pair :
    score exactNumbers (run none
        (List.replicate 2 (plainOutcome "p" true) ++
          List.replicate 5 (plainOutcome "p" false))) "p" =
      .ok ⟨"p", 7, 2 / 7, 1, none, 1 / 2⟩ ∧
    score exactNumbers (run none [plainOutcome [0xD83D, 0xDE00] true])
        [0xD83D, 0xDE00] =
      .ok ⟨[0xD83D, 0xDE00], 0, 0, 0, none, 1 / 2⟩ := by
  constructor
  · decide +kernel
  · decide +kernel

end Exact

end SovereignInference.SipReputation
