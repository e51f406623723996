import SovereignInference.SipPic.BlindSpending
import SovereignInference.SipPic.ConcurrentRedemption

/-!
# Races for one blind credit

A redemption of a blind credit looks its key up and then spends it, and does
not look at what spending answered.  The lookup decides, so every call that
looks before the first one has spent succeeds.
-/

namespace SovereignInference.SipPic

open Python Effects

section

variable {ι : Type} {key : Text} {log : List (ι × Event SpentSig)}

def LookedUpIn (key : Text) (log : List (ι × Event SpentSig)) : Prop :=
  ∃ entry ∈ log, entry.2.op = .isSpent key

def SpentIn (key : Text) (log : List (ι × Event SpentSig)) : Prop :=
  ∃ entry ∈ log, entry.2.op = .spend key

/-- Every lookup of the key, except the first, comes after a spend of it. -/
def LookupsApart (key : Text) (log : List (ι × Event SpentSig)) : Prop :=
  ∀ before i answer after,
    log = before ++ (i, ⟨.isSpent key, answer⟩) :: after →
      LookedUpIn key before → SpentIn key before

theorem LookedUpIn.first (looked : LookedUpIn key log) :
    ∃ before i answer after,
      log = before ++ (i, ⟨.isSpent key, answer⟩) :: after ∧
        ¬ LookedUpIn key before := by
  let looksUp : ι × Event SpentSig → Bool :=
    fun entry => decide (entry.2.op = .isSpent key)
  obtain ⟨entry, member, isLookup⟩ := looked
  have isSome : (log.find? looksUp).isSome :=
    List.find?_isSome.mpr ⟨entry, member, decide_eq_true isLookup⟩
  obtain ⟨⟨i, ⟨op, answer⟩⟩, found⟩ := Option.isSome_iff_exists.mp isSome
  obtain ⟨isFirst, before, after, split, notBefore⟩ :=
    List.find?_eq_some_iff_append.mp found
  obtain rfl : op = .isSpent key := of_decide_eq_true isFirst
  refine ⟨before, i, answer, after, split, ?_⟩
  intro earlier
  obtain ⟨other, inBefore, isLookup⟩ := earlier
  have notLookup := notBefore other inBefore
  simp [looksUp, isLookup] at notLookup

/-- Every lookup answers whether the key was spent before it. -/
def ReadsTrue (key : Text) (log : List (ι × Event SpentSig)) : Prop :=
  ∀ before i answer after,
    log = before ++ (i, ⟨.isSpent key, answer⟩) :: after →
      ∃ spent, answer = .ok spent ∧ (spent = true ↔ SpentIn key before)

def NeverUnspent (key : Text) (log : List (ι × Event SpentSig)) : Prop :=
  ∀ entry ∈ log, entry.2.op ≠ .unspend key

theorem spentIn_append {entry : ι × Event SpentSig} :
    SpentIn key (log ++ [entry]) ↔
      SpentIn key log ∨ entry.2.op = .spend key := by
  simp [SpentIn, or_and_right, exists_or]

/-- What the table holds of the key, and what it has answered about it. -/
def Records (key : Text) (keys : Finset Text)
    (log : List (ι × Event SpentSig)) : Prop :=
  NeverUnspent key log → (key ∈ keys ↔ SpentIn key log) ∧ ReadsTrue key log

theorem records_step {keys after : Finset Text} {i : ι} {op : SpentOp}
    {answer : SpentSig.Ans op} (records : Records key keys log)
    (stepped : spentTable.world.step keys op answer after) :
    Records key after (log ++ [(i, ⟨op, answer⟩)]) := by
  intro never
  have neverBefore : NeverUnspent key log := fun entry member =>
    never entry (List.mem_append_left _ member)
  obtain ⟨held, reads⟩ := records neverBefore
  have readsLater : (∀ other, op = .isSpent other → other ≠ key) →
      ReadsTrue key (log ++ [(i, ⟨op, answer⟩)]) := by
    intro otherwise before j answer' rest equality
    rcases last_or_earlier equality with ⟨_, _, same⟩ | ⟨earlier, _, same⟩
    · cases same
      exact absurd rfl (otherwise key rfl)
    · exact reads before j answer' earlier same
  rw [spentIn_append]
  cases op with
  | isSpent other =>
      cases stepped
      refine ⟨by simpa using held, ?_⟩
      by_cases same : other = key
      · subst same
        intro before j answer' rest equality
        rcases last_or_earlier equality with ⟨_, rfl, same⟩ | ⟨earlier, _, same⟩
        · cases same
          exact ⟨_, rfl, by simpa [selectSpent] using held⟩
        · exact reads before j answer' earlier same
      · apply readsLater
        intro other' equality
        cases equality
        exact same
  | unspend other =>
      cases stepped
      have different : other ≠ key := by
        rintro rfl
        exact never _ (List.mem_append_right _ (List.mem_singleton_self _)) rfl
      refine ⟨?_, readsLater (by simp)⟩
      simpa [deleteSpent, Ne.symm different] using held
  | spend other =>
      refine ⟨?_, readsLater (by simp)⟩
      rcases spentTable_spend_cases stepped with
        ⟨present, _, rfl⟩ | ⟨_, _, rfl⟩
      · by_cases same : other = key
        · subst same
          simp [present]
        · simpa [same] using held
      · rw [Finset.mem_insert, held]
        simp [or_comm, eq_comm]

/-- The call does nothing but look the key up and spend it. -/
def OnlyKey (key : Text) (_ : List (Event SpentSig)) (op : SpentOp) : Prop :=
  op = .isSpent key ∨ op = .spend key

/-- A call succeeds exactly when its one lookup found the key unspent. -/
def CallTrace (key : Text) (outcome : Except PyExc RedeemResult)
    (trace : List (Event SpentSig)) : Prop :=
  (Redeemed outcome ∧ ∃ answer,
      trace = [⟨.isSpent key, .ok false⟩, ⟨.spend key, answer⟩]) ∨
    (¬ Redeemed outcome ∧ trace = [⟨.isSpent key, .ok true⟩])

theorem BlindCall.wp_program {call : BlindCall} (acceptable : call.Acceptable) :
    call.program.wp (traceWorld (OnlyKey call.credit.spendKey) Answered)
      (CallTrace call.credit.spendKey) [] := by
  rw [call.program_acceptable acceptable]
  refine ⟨.inl rfl, ?_⟩
  intro answer middle stepped
  obtain ⟨⟨spent, rfl⟩, rfl⟩ := stepped
  cases spent with
  | true => exact .inr ⟨by simp [blindRefused], rfl⟩
  | false =>
      refine ⟨.inr rfl, ?_⟩
      intro answer after stepped
      obtain ⟨⟨fresh, rfl⟩, rfl⟩ := stepped
      exact .inl ⟨(redeemed_ok _).mpr rfl, _, rfl⟩

variable [DecidableEq ι] {credit : BlindCredit} {calls : ι → BlindCall}
  {keys : Finset Text} {pool : RedemptionPool ι}
  (same : ∀ i, (calls i).credit = credit)
  (acceptable : ∀ i, (calls i).Acceptable)
  (run : Pool.Reaches spentTable.world
    (Pool.start keys fun i => (calls i).program) pool)

include same acceptable run

theorem race_rule_kept : RuleKept (fun _ => OnlyKey credit.spendKey) pool.log :=
  (Pool.Reaches.local_wp
    (fun _ _ _ _ stepped => spentTable_answered stepped)
    (ruleKept_nil _)
    (fun i => by
      have safe := BlindCall.wp_program (acceptable i)
      rw [same i] at safe
      exact safe) run).1

theorem race_trace {i : ι} {outcome : Except PyExc RedeemResult}
    (finished : (pool.thread i).Finished outcome) :
    CallTrace credit.spendKey outcome (localTrace pool.log i) := by
  apply Pool.Reaches.finished_post
    (fun _ _ _ _ stepped => spentTable_answered stepped)
    (fun i => ?_) (ruleKept_nil fun _ => OnlyKey credit.spendKey) run finished
  have safe := BlindCall.wp_program (acceptable i)
  rw [same i] at safe
  exact safe

private theorem race_neverUnspent : NeverUnspent credit.spendKey pool.log := by
  intro entry member unspends
  obtain ⟨before, after, split⟩ := List.append_of_mem member
  rcases race_rule_kept same acceptable run before entry.1 entry.2 after
    split with looks | spends
  · rw [unspends] at looks
    cases looks
  · rw [unspends] at spends
    cases spends

theorem race_reads (fresh : credit.spendKey ∉ keys) :
    ReadsTrue credit.spendKey pool.log := by
  have records : Records credit.spendKey pool.store pool.log :=
    run.store_invariant
      (fun _ => ⟨by simp [Pool.start, fresh, SpentIn], by
        intro before i answer after equality
        simp [Pool.start] at equality⟩)
      (fun _ _ _ _ _ _ records stepped => records_step records stepped)
  exact (records (race_neverUnspent same acceptable run)).2

variable (finished : pool.AllFinished)

include finished

/-- The successful calls are those whose lookup found the key unspent. -/
theorem race_succeeded_iff (i : ι) :
    pool.Succeeded i ↔
      (i, (⟨.isSpent credit.spendKey, .ok false⟩ : Event SpentSig)) ∈
        pool.log := by
  obtain ⟨outcome, done⟩ := finished i
  rw [← mem_localTrace]
  rcases race_trace same acceptable run done with
    ⟨redeemed, answer, trace⟩ | ⟨refused, trace⟩
  · rw [trace]
    simpa using ⟨outcome, done, redeemed⟩
  · rw [trace]
    simp only [List.mem_singleton, Event.mk.injEq, heq_eq_eq, true_and,
      Except.ok.injEq, Bool.false_eq_true, iff_false]
    intro succeeded
    obtain ⟨other, alsoDone, redeemed⟩ := succeeded
    rw [Prog.finished_iff] at done alsoDone
    rw [done, Option.some.injEq] at alsoDone
    exact refused (alsoDone ▸ redeemed)

/-- A call looks the key up once. -/
theorem race_lookup_once {before after : List (ι × Event SpentSig)} {i : ι}
    {answer other : Except PyExc Bool}
    (split : pool.log = before ++ (i, ⟨.isSpent credit.spendKey, answer⟩) ::
      after) :
    (i, (⟨.isSpent credit.spendKey, other⟩ : Event SpentSig)) ∉ before := by
  intro earlier
  obtain ⟨outcome, done⟩ := finished i
  have earlierTrace := mem_localTrace.mpr earlier
  have whole : localTrace pool.log i = localTrace before i ++
      ⟨.isSpent credit.spendKey, answer⟩ :: localTrace after i := by
    rw [split, localTrace_append]
    simp [localTrace]
  obtain ⟨first, rest, beforeSplit⟩ := List.append_of_mem earlierTrace
  rw [beforeSplit] at whole
  rcases race_trace same acceptable run done with
    ⟨_, spendAnswer, trace⟩ | ⟨_, trace⟩
  · rw [trace] at whole
    have lengths := congrArg List.length whole
    simp only [List.length_append, List.length_cons, List.length_nil] at lengths
    obtain rfl : first = [] := List.eq_nil_of_length_eq_zero (by omega)
    obtain rfl : rest = [] := List.eq_nil_of_length_eq_zero (by omega)
    cases whole
  · rw [trace] at whole
    have lengths := congrArg List.length whole
    simp only [List.length_append, List.length_cons, List.length_nil] at lengths
    omega

/-- A spend comes after a lookup. -/
theorem race_spend_after_lookup {before after : List (ι × Event SpentSig)}
    (split : pool.log = before ++ after)
    (spent : SpentIn credit.spendKey before) :
    LookedUpIn credit.spendKey before := by
  obtain ⟨entry, member, spends⟩ := spent
  obtain ⟨i, event⟩ := entry
  obtain ⟨outcome, done⟩ := finished i
  have whole : localTrace pool.log i =
      localTrace before i ++ localTrace after i := by
    rw [split, localTrace_append]
  have spendTrace := mem_localTrace.mpr member
  obtain ⟨first, others, nonempty⟩ := List.exists_cons_of_ne_nil
    (List.ne_nil_of_mem spendTrace)
  rw [nonempty] at whole
  have isLookup : first.op = .isSpent credit.spendKey := by
    rcases race_trace same acceptable run done with
      ⟨_, answer, trace⟩ | ⟨_, trace⟩
    · rw [trace] at whole
      rw [← (List.cons.inj whole).1]
    · rw [trace] at whole
      rw [← (List.cons.inj whole).1]
  refine ⟨(i, first), mem_localTrace.mp ?_, isLookup⟩
  rw [nonempty]
  exact List.mem_cons_self

theorem race_someone_succeeds [Nonempty ι] (fresh : credit.spendKey ∉ keys) :
    ∃ i, pool.Succeeded i := by
  have reads := race_reads same acceptable run fresh
  obtain ⟨i⟩ := ‹Nonempty ι›
  obtain ⟨outcome, done⟩ := finished i
  have looked : LookedUpIn credit.spendKey pool.log := by
    rcases race_trace same acceptable run done with
      ⟨_, answer, trace⟩ | ⟨_, trace⟩
    · have member : (i, (⟨.isSpent credit.spendKey, .ok false⟩ :
          Event SpentSig)) ∈ pool.log := mem_localTrace.mp (by simp [trace])
      exact ⟨_, member, rfl⟩
    · have member : (i, (⟨.isSpent credit.spendKey, .ok true⟩ :
          Event SpentSig)) ∈ pool.log := mem_localTrace.mp (by simp [trace])
      exact ⟨_, member, rfl⟩
  obtain ⟨before, j, answer, after, split, isFirst⟩ := looked.first
  obtain ⟨spent, rfl, spentBefore⟩ := reads before j answer after split
  have unspent : spent = false := by
    rw [← Bool.not_eq_true, spentBefore]
    intro spentIn
    exact isFirst
      (race_spend_after_lookup same acceptable run finished split spentIn)
  subst unspent
  refine ⟨j, (race_succeeded_iff same acceptable run finished j).mpr ?_⟩
  rw [split]
  exact List.mem_append_right _ List.mem_cons_self

omit finished in
/-- No two successful calls: the later lookup would come after a spend. -/
theorem race_two_succeed (fresh : credit.spendKey ∉ keys)
    (apart : LookupsApart credit.spendKey pool.log) {i j : ι}
    {before after : List (ι × Event SpentSig)}
    (split : pool.log =
      before ++ (i, ⟨.isSpent credit.spendKey, .ok false⟩) :: after) :
    (j, (⟨.isSpent credit.spendKey, .ok false⟩ : Event SpentSig)) ∉
      before := by
  intro earlier
  have spentBefore := apart before i _ after split ⟨_, earlier, rfl⟩
  obtain ⟨spent, isFalse, reads⟩ :=
    race_reads same acceptable run fresh before i _ after split
  rw [← reads] at spentBefore
  rw [spentBefore] at isFalse
  cases isFalse

/-- **One winner.**  Exactly one of the calls succeeds if and only if every
lookup but the first comes after a spend. -/
theorem blind_race_winner_iff [Nonempty ι] (fresh : credit.spendKey ∉ keys) :
    (∃! i, pool.Succeeded i) ↔ LookupsApart credit.spendKey pool.log := by
  have succeeded := race_succeeded_iff same acceptable run finished
  have reads := race_reads same acceptable run fresh
  constructor
  · intro single before i answer after split looked
    by_contra notSpent
    obtain ⟨earlier, j, other, rest, beforeSplit, _⟩ := looked.first
    have earlierSplit : pool.log = earlier ++
        (j, ⟨.isSpent credit.spendKey, other⟩) ::
          (rest ++ (i, ⟨.isSpent credit.spendKey, answer⟩) :: after) := by
      rw [split, beforeSplit, List.append_assoc, List.cons_append]
    obtain ⟨spent, rfl, spentBefore⟩ := reads before i answer after split
    obtain ⟨otherSpent, rfl, otherBefore⟩ :=
      reads earlier j other _ earlierSplit
    have unspent : spent = false := by
      rw [← Bool.not_eq_true, spentBefore]
      exact notSpent
    have otherUnspent : otherSpent = false := by
      rw [← Bool.not_eq_true, otherBefore]
      intro spentIn
      obtain ⟨entry, member, spends⟩ := spentIn
      refine notSpent ⟨entry, ?_, spends⟩
      rw [beforeSplit]
      exact List.mem_append_left _ member
    subst unspent otherUnspent
    have inBefore : (j, (⟨.isSpent credit.spendKey, .ok false⟩ :
        Event SpentSig)) ∈ before := by
      rw [beforeSplit]
      exact List.mem_append_right _ List.mem_cons_self
    have jSucceeded : pool.Succeeded j := by
      rw [succeeded, split]
      exact List.mem_append_left _ inBefore
    have iSucceeded : pool.Succeeded i := by
      rw [succeeded, split]
      exact List.mem_append_right _ List.mem_cons_self
    obtain rfl := single.unique iSucceeded jSucceeded
    exact race_lookup_once same acceptable run finished split inBefore
  · intro apart
    obtain ⟨i, iSucceeded⟩ :=
      race_someone_succeeds same acceptable run finished fresh
    refine ⟨i, iSucceeded, ?_⟩
    intro j jSucceeded
    rw [succeeded] at iSucceeded jSucceeded
    obtain ⟨before, after, split⟩ := List.append_of_mem iSucceeded
    have notBefore := @race_two_succeed _ _ _ _ _ _ same acceptable run
      fresh apart i j before after split
    rw [split, List.mem_append, List.mem_cons] at jSucceeded
    rcases jSucceeded with inBefore | isSame | inAfter
    · exact absurd inBefore notBefore
    · exact congrArg Prod.fst isSame
    · obtain ⟨middle, rest, afterSplit⟩ := List.append_of_mem inAfter
      have laterSplit : pool.log =
          (before ++ (i, ⟨.isSpent credit.spendKey, .ok false⟩) :: middle) ++
            (j, ⟨.isSpent credit.spendKey, .ok false⟩) :: rest := by
        rw [split, afterSplit, List.append_assoc, List.cons_append]
      have notEarlier := @race_two_succeed _ _ _ _ _ _ same acceptable run
        fresh apart j i _ _ laterSplit
      exact absurd (List.mem_append_right _ List.mem_cons_self) notEarlier

end

/-- Two calls with the credit of the serial zero, in turns. -/
def blindPool (turns : List Bool) : RedemptionPool Bool :=
  (Pool.start ∅ fun _ => (respelledCall "AA").program).schedule spentTable turns

theorem blindPool_reached (turns : List Bool) :
    Pool.Reaches spentTable.world
      (Pool.start ∅ fun _ : Bool => (respelledCall "AA").program)
      (blindPool turns) :=
  Pool.reaches_schedule _ _ _

theorem respelledCall_acceptable : (respelledCall "AA").Acceptable := by
  decide +kernel

theorem blindPool_finished {turns : List Bool}
    {outcome : Bool → Except PyExc RedeemResult}
    (ended : ∀ second, ((blindPool turns).thread second).outcome? =
      some (outcome second)) : (blindPool turns).AllFinished :=
  fun second => ⟨_, Prog.finished_iff.mpr (ended second)⟩

/-- A lookup and a spend by one call, then a lookup by the other. -/
theorem blindPool_in_turn_apart :
    LookupsApart (respelledCall "AA").credit.spendKey
      (blindPool [false, false, true]).log := by
  have logged : (blindPool [false, false, true]).log =
      [(false, ⟨.isSpent (respelledCall "AA").credit.spendKey, .ok false⟩),
        (false, ⟨.spend (respelledCall "AA").credit.spendKey, .ok true⟩),
        (true, ⟨.isSpent (respelledCall "AA").credit.spendKey, .ok true⟩)] := by
    unfold blindPool
    rw [BlindCall.program_acceptable respelledCall_acceptable]
    rfl
  rw [logged]
  intro before i answer after split looked
  match before with
  | [] =>
      obtain ⟨entry, member, _⟩ := looked
      cases member
  | [_] => cases split
  | [_, _] =>
      cases split
      exact ⟨_, List.mem_cons_of_mem _ List.mem_cons_self, rfl⟩
  | [_, _, _] => cases split
  | _ :: _ :: _ :: _ :: _ => cases split

/-- One call after the other. -/
theorem blind_race_winner_iff_in_turn :
    ∃! second, (blindPool [false, false, true]).Succeeded second := by
  have ended : ∀ second : Bool,
      ((blindPool [false, false, true]).thread second).outcome? =
        some (.ok (if second then blindRefused "double_spend"
          else ⟨true, "blind", "5", ""⟩)) := by
    decide +kernel
  exact (blind_race_winner_iff (fun _ => rfl)
    (fun _ => respelledCall_acceptable) (blindPool_reached _)
    (blindPool_finished ended) (Finset.notMem_empty _)).mpr
      blindPool_in_turn_apart

/-- Both calls look before either of them spends, and both succeed. -/
theorem interleaved_lookups_both_win :
    (respelledCall "AA").Acceptable ∧
      (blindPool [false, true, false, true]).AllFinished ∧
      ¬ ∃! second, (blindPool [false, true, false, true]).Succeeded second := by
  have ended : ∀ second : Bool,
      ((blindPool [false, true, false, true]).thread second).outcome? =
        some (.ok ⟨true, "blind", "5", ""⟩) := by
    decide +kernel
  have succeeded : ∀ second,
      (blindPool [false, true, false, true]).Succeeded second :=
    fun second => ⟨_, Prog.finished_iff.mpr (ended second),
      (redeemed_ok _).mpr rfl⟩
  refine ⟨respelledCall_acceptable, blindPool_finished ended, ?_⟩
  intro single
  cases single.unique (succeeded false) (succeeded true)

end SovereignInference.SipPic
