import SovereignInference.SipPic.Settlement
import SovereignInference.SipProtocol.SignatureTable

/-!
# Concurrent redemptions over one guard

Any number of payments are committed at the same time, one call of the guard
after another and in any order.  The keys of the guard are divided between the
payments and what was there before, so no key pays twice and a payment that
loses leaves nothing behind.
-/

namespace SovereignInference.SipPic

open Python Effects SipProtocol

/-- What a call of the guard does to the keys of its caller. -/
def spentAction : Event SpentSig → KeyAction Text
  | ⟨.spend key, .ok true⟩ => .acquire key
  | ⟨.unspend key, .ok _⟩ => .release key
  | _ => .other

/-- The call did not raise. -/
def Answered : Event SpentSig → Prop
  | ⟨.isSpent _, answer⟩ => ∃ spent, answer = .ok spent
  | ⟨.spend _, answer⟩ => ∃ fresh, answer = .ok fresh
  | ⟨.unspend _, answer⟩ => answer = .ok ()

/-- A caller gives back only what it holds. -/
def GivesBackOwn (trace : List (Event SpentSig)) : SpentOp → Prop
  | .unspend key => key ∈ heldBy spentAction trace
  | _ => True

theorem traceWorld_keyWorld :
    KeyWorld (traceWorld GivesBackOwn Answered) (heldBy spentAction)
      (fun _ => ()) () Set.univ where
  lookup := fun _ _ => trivial
  take := fun _ _ _ _ => trivial
  giveBack := fun _ _ _ own => own
  lookedUp := by
    intro trace key answer after stepped
    obtain ⟨answered, rfl⟩ := stepped
    exact ⟨answered, by simp [spentAction]⟩
  taken := by
    intro trace key answer after stepped
    obtain ⟨⟨fresh, rfl⟩, rfl⟩ := stepped
    refine ⟨fresh, rfl, ?_⟩
    cases fresh with
    | true => simp [spentAction]
    | false => simp [spentAction]
  givenBack := by
    intro trace key answer after stepped
    obtain ⟨answered, rfl⟩ := stepped
    obtain rfl : answer = .ok () := answered
    exact ⟨rfl, by simp [spentAction]⟩
  untouched := fun _ _ _ _ _ => rfl

theorem spentTable_answered {keys after : Finset Text} {op : SpentOp}
    {answer : SpentSig.Ans op}
    (stepped : spentTable.world.step keys op answer after) :
    Answered ⟨op, answer⟩ := by
  cases op with
  | isSpent key =>
      cases stepped
      exact ⟨_, rfl⟩
  | unspend key =>
      cases stepped
      rfl
  | spend key =>
      rcases spentTable_spend_cases stepped with ⟨_, rfl, _⟩ | ⟨_, rfl, _⟩
      · exact ⟨_, rfl⟩
      · exact ⟨_, rfl⟩

theorem spentTable_exclusive :
    ExclusiveStore spentTable.world spentAction fun keys => ↑keys where
  effect := by
    intro keys op answer after stepped
    cases op with
    | isSpent key =>
        cases stepped
        rfl
    | unspend key =>
        cases stepped
        simp [spentAction, deleteSpent]
    | spend key =>
        rcases spentTable_spend_cases stepped with
          ⟨_, rfl, rfl⟩ | ⟨_, rfl, rfl⟩
        · rfl
        · simp [spentAction]
  absent := by
    intro keys op answer after key stepped acquires
    cases op with
    | isSpent other => cases acquires
    | unspend other =>
        cases stepped
        cases acquires
    | spend other =>
        rcases spentTable_spend_cases stepped with
          ⟨_, rfl, _⟩ | ⟨fresh, rfl, _⟩
        · cases acquires
        · cases acquires
          exact fresh

theorem givesBackOwn_releases : ReleasesOwn spentAction GivesBackOwn := by
  intro trace op answer key allowed releases
  cases op with
  | isSpent other => cases releases
  | spend other =>
      cases answer with
      | error error => cases releases
      | ok fresh => cases fresh <;> cases releases
  | unspend other =>
      cases answer with
      | error error => cases releases
      | ok done =>
          cases releases
          exact allowed

/-- A committing call of `redeem_payment`. -/
structure Redemption where
  terms : Terms
  payment : Dict

def Redemption.program (P : Platform) (call : Redemption) :
    Prog SpentSig PyExc RedeemResult :=
  redeem P call.terms call.payment true

theorem Redemption.wp_program (P : Platform) (call : Redemption) :
    (call.program P).wp (traceWorld GivesBackOwn Answered)
      (RedeemPost P call.terms call.payment true (heldBy spentAction)
        (fun _ => ()) []) [] :=
  traceWorld_keyWorld.wp_redeem rfl (heldBy_nil _)
    fun _ _ _ => Set.mem_univ _

abbrev RedemptionPool (ι : Type) :=
  Pool SpentSig PyExc RedeemResult (Finset Text) ι

section

variable {ι : Type}

/-- The call has returned `ok=True`. -/
def RedemptionPool.Succeeded (pool : RedemptionPool ι) (i : ι) : Prop :=
  ∃ outcome, (pool.thread i).Finished outcome ∧ Redeemed outcome

def RedemptionPool.AllFinished (pool : RedemptionPool ι) : Prop :=
  ∀ i, ∃ outcome, (pool.thread i).Finished outcome

variable [DecidableEq ι] {P : Platform} {keys : Finset Text}
  {calls : ι → Redemption} {pool : RedemptionPool ι}

/-- The keys a call holds according to the log. -/
def RedemptionPool.holds (pool : RedemptionPool ι) (i : ι) : Set Text :=
  heldBy spentAction (localTrace pool.log i)

variable (run : Pool.Reaches spentTable.world
  (Pool.start keys fun i => (calls i).program P) pool)

include run

theorem redemption_outcome {i : ι} {outcome : Except PyExc RedeemResult}
    (finished : (pool.thread i).Finished outcome) :
    RedeemPost P (calls i).terms (calls i).payment true
      (heldBy spentAction) (fun _ => ()) [] outcome
      (localTrace pool.log i) :=
  Pool.Reaches.finished_post
    (fun _ _ _ _ stepped => spentTable_answered stepped)
    (fun i => (calls i).wp_program P) (ruleKept_nil _) run finished

theorem redemption_partition :
    Partition (↑keys) (↑pool.store) pool.holds :=
  Pool.Reaches.partition spentTable_exclusive
    (fun _ => givesBackOwn_releases)
    (fun _ _ _ _ stepped => spentTable_answered stepped)
    (fun i => (calls i).wp_program P) run

theorem redemption_rule_kept : RuleKept (fun _ => GivesBackOwn) pool.log :=
  (Pool.Reaches.local_wp
    (fun _ _ _ _ stepped => spentTable_answered stepped)
    (ruleKept_nil _) (fun i => (calls i).wp_program P) run).1

private theorem redemption_holds {i : ι} {outcome : Except PyExc RedeemResult}
    (finished : (pool.thread i).Finished outcome) (key : Text) :
    key ∈ pool.holds i ↔
      Redeemed outcome ∧ key ∈ paymentKeys (calls i).payment := by
  have post := redemption_outcome run finished
  unfold RedemptionPool.holds
  by_cases redeemed : Redeemed outcome
  · rw [post.keys redeemed, if_pos rfl]
    simp [redeemed]
  · rw [post.nothing redeemed]
    simp [redeemed]

/-- **No double spending.**  A key pays for at most one successful call, the
finished guard holds its initial keys and those of the successful calls, and
a call never gives back a key that it does not hold itself. -/
theorem concurrent_redemptions_safe :
    (∀ i j key, pool.Succeeded i → pool.Succeeded j →
      key ∈ paymentKeys (calls i).payment →
      key ∈ paymentKeys (calls j).payment → i = j) ∧
    (pool.AllFinished → ∀ key, key ∈ pool.store ↔
      key ∈ keys ∨
        ∃ i, pool.Succeeded i ∧ key ∈ paymentKeys (calls i).payment) ∧
    (∀ before i key answer after,
      pool.log = before ++ (i, ⟨.unspend key, answer⟩) :: after →
        key ∈ heldBy spentAction (localTrace before i)) := by
  have parts := redemption_partition run
  refine ⟨?_, ?_, ?_⟩
  · intro i j key iSucceeded jSucceeded inI inJ
    obtain ⟨_, iFinished, iRedeemed⟩ := iSucceeded
    obtain ⟨_, jFinished, jRedeemed⟩ := jSucceeded
    apply parts.disjoint i j key
    · exact (redemption_holds run iFinished key).mpr ⟨iRedeemed, inI⟩
    · exact (redemption_holds run jFinished key).mpr ⟨jRedeemed, inJ⟩
  · intro allFinished key
    have covers := parts.covers key
    simp only [Finset.mem_coe] at covers
    rw [covers]
    apply or_congr_right
    constructor
    · intro held
      obtain ⟨i, held⟩ := held
      obtain ⟨outcome, finished⟩ := allFinished i
      obtain ⟨redeemed, member⟩ := (redemption_holds run finished key).mp held
      exact ⟨i, ⟨outcome, finished, redeemed⟩, member⟩
    · intro succeeded
      obtain ⟨i, ⟨outcome, finished, redeemed⟩, member⟩ := succeeded
      exact ⟨i, (redemption_holds run finished key).mpr ⟨redeemed, member⟩⟩
  · intro before i key answer after logged
    exact redemption_rule_kept run before i _ after logged

end

def payerKey : Text := "ed25519:gTl3Dqh9F19Wo1Rmw0x-zMuNipG07jeiXfYPW4_Js5Q"

def signedAssertion : Dict :=
  [("payer_pubkey", .str payerKey), ("amount", .str "1"),
    ("unit", .str "pic"), ("nonce", .str "n1"),
    ("issued_at", .str "2026-01-01T00:00:00Z")]

def assertionSignature : Text :=
  "ed25519:ta99_hV_1aKS4o78LZTwGh7d_c39L2-xeSixXjcg7jgU6bBT296jBMtdYUS9m0gAezng99BqEjfiWzQq1LLtAg"

def assertionTable : SignatureTable where
  keys := []
  signatures := [(payerKey, signedAssertion, assertionSignature)]

def assertion : Dict :=
  [("scheme", .str "x402"),
    ("payment", .obj
      (signedAssertion.set "signature" (.str assertionSignature)))]

def assertionTerms : Terms where
  price := "1"
  unit := "pic"
  issuerPubkeys := []
  now := ⟨63902822460000000, some 0⟩
  providerPubkey := none
  requestId := none

def racingCalls (_ : Bool) : Redemption := ⟨assertionTerms, assertion⟩

/-- Both calls look the nonce up before either of them spends it. -/
def racedPool : RedemptionPool Bool :=
  (Pool.start ∅ fun second =>
    (racingCalls second).program assertionTable.platform).schedule spentTable
      [false, true, false, true]

theorem racedPool_outcomes :
    (racedPool.thread false).outcome? = some (.ok ⟨true, "x402", "1", ""⟩) ∧
      (racedPool.thread true).outcome? =
        some (.ok (refused "x402" "0" "double_spend")) := by
  decide +kernel

private theorem racedPool_reached :
    Pool.Reaches spentTable.world
      (Pool.start ∅ fun second =>
        (racingCalls second).program assertionTable.platform) racedPool :=
  Pool.reaches_schedule _ _ _

theorem concurrent_redemptions_safe_race :
    racedPool.Succeeded false ∧ ¬ racedPool.Succeeded true ∧
      ∀ key, key ∈ racedPool.store ↔
        key ∈ (∅ : Finset Text) ∨ ∃ second, racedPool.Succeeded second ∧
          key ∈ paymentKeys (racingCalls second).payment := by
  obtain ⟨won, lost⟩ := racedPool_outcomes
  rw [← Prog.finished_iff] at won lost
  obtain ⟨onePays, store, _⟩ :=
    concurrent_redemptions_safe racedPool_reached
  have succeeded : racedPool.Succeeded false :=
    ⟨_, won, (redeemed_ok _).mpr rfl⟩
  refine ⟨succeeded, ?_, ?_⟩
  · intro alsoSucceeded
    have key : x402SpendKey "n1" ∈ paymentKeys assertion := by decide
    cases onePays false true _ succeeded alsoSucceeded key key
  · apply store
    intro second
    cases second with
    | false => exact ⟨_, won⟩
    | true => exact ⟨_, lost⟩

end SovereignInference.SipPic
