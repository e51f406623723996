import SovereignInference.SipGateway.Answer
import SovereignInference.SipPic.ConcurrentRedemption

/-!
# The books of one request

A request of a paying gateway spends only keys that back its price, records
once, when it holds all of them, and answers with a completion only after that.
This holds against any answers of the guard and the host that do not raise.
-/

namespace SovereignInference.SipGateway

open Python Effects SipProtocol SipPic

/-- What a call does to the keys of its request. -/
def gatewayAction : Event GatewaySig → KeyAction Text
  | ⟨.inl op, answer⟩ => spentAction ⟨op, answer⟩
  | ⟨.inr _, _⟩ => .other

/-- The entry that a call records. -/
def recorded : Event GatewaySig → Option LedgerEntry
  | ⟨.inr (.record entry), _⟩ => some entry
  | _ => none

/-- The calls of the guard and the ledger do not raise. -/
def StoreAnswered : Event GatewaySig → Prop
  | ⟨.inl op, answer⟩ => Answered ⟨op, answer⟩
  | ⟨.inr (.record _), answer⟩ => answer = .ok ()
  | _ => True

/-- The keys that a request holds. -/
def heldKeys (trace : List (Event GatewaySig)) : Set Text :=
  heldBy gatewayAction trace

/-- The entries that a request has recorded. -/
def entriesOf (trace : List (Event GatewaySig)) : List LedgerEntry :=
  trace.filterMap recorded

/-- A request at a gateway. -/
structure GatewayCall where
  gateway : Gateway
  request : Request

def GatewayCall.program (P : Platform) (call : GatewayCall) :
    Prog GatewaySig PyExc Response :=
  chatCompletions P call.gateway call.request

/-- The gateway enforces payment and keeps a ledger. -/
structure GatewayCall.Charging (call : GatewayCall) : Prop where
  paying : call.gateway.requirePayment = true
  keeping : call.gateway.keepsLedger = true

/-- The order is admitted at this price, and its payment settles it at some
moment. -/
structure Backs (P : Platform) (call : GatewayCall) (order : Order)
    (required : Text) : Prop where
  admitted : admission call.gateway call.request = .ok (.ok order)
  priced : requiredPrice call.gateway order = .ok required
  settled : ∃ moment, settles P (termsAt P call.gateway order required moment)
    order.payment = true

/-- The keys that may be spent for the call. -/
def backedKeys (P : Platform) (call : GatewayCall) : Set Text :=
  {key | ∃ order required, Backs P call order required ∧
    key ∈ paymentKeys order.payment}

/-- What a request may do: spend what backs it and give back its own as long as
it has not recorded, and record once, with all keys in hand. -/
def BooksRule (P : Platform) (call : GatewayCall)
    (trace : List (Event GatewaySig)) : GatewaySig.Op → Prop
  | .inl (.isSpent _) => True
  | .inl (.spend key) => entriesOf trace = [] ∧ key ∈ backedKeys P call
  | .inl (.unspend key) => entriesOf trace = [] ∧ key ∈ heldKeys trace
  | .inr (.record entry) => entriesOf trace = [] ∧
      ∃ order required, Backs P call order required ∧
        entry = ledgerEntry P call.gateway order required ∧
          heldKeys trace = {key | key ∈ paymentKeys order.payment}
  | .inr _ => True

variable {P : Platform} {call : GatewayCall}
  {trace : List (Event GatewaySig)}

abbrev bookWorld (P : Platform) (call : GatewayCall) :
    World GatewaySig (List (Event GatewaySig)) :=
  traceWorld (BooksRule P call) StoreAnswered

theorem heldKeys_append_left (trace : List (Event GatewaySig)) (op : SpentOp)
    (answer : SpentSig.Ans op) :
    heldKeys (trace ++ [⟨.inl op, answer⟩]) =
      (spentAction ⟨op, answer⟩).apply (heldKeys trace) :=
  heldBy_append gatewayAction trace _

theorem heldKeys_append_right (trace : List (Event GatewaySig)) (op : HostOp)
    (answer : HostSig.Ans op) :
    heldKeys (trace ++ [⟨.inr op, answer⟩]) = heldKeys trace :=
  heldBy_append gatewayAction trace _

theorem entriesOf_append_left (trace : List (Event GatewaySig)) (op : SpentOp)
    (answer : SpentSig.Ans op) :
    entriesOf (trace ++ [⟨.inl op, answer⟩]) = entriesOf trace := by
  simp [entriesOf, recorded]

/-- To the redemptions of a request the world is one that keeps track of the
keys. -/
theorem bookWorld_keyWorld (P : Platform) (call : GatewayCall) :
    KeyWorld (bookWorld P call).left heldKeys entriesOf []
      (backedKeys P call) where
  lookup := fun _ _ => trivial
  take := fun _ _ calm backed => ⟨calm, backed⟩
  giveBack := fun _ _ calm own => ⟨calm, own⟩
  lookedUp := by
    intro trace key answer after stepped
    obtain ⟨answered, rfl⟩ := stepped
    refine ⟨answered, ?_⟩
    rw [heldKeys_append_left]
    rfl
  taken := by
    intro trace key answer after stepped
    obtain ⟨⟨fresh, rfl⟩, rfl⟩ := stepped
    refine ⟨fresh, rfl, ?_⟩
    rw [heldKeys_append_left]
    cases fresh <;> rfl
  givenBack := by
    intro trace key answer after stepped
    obtain ⟨answered, rfl⟩ := stepped
    obtain rfl : answer = .ok () := answered
    refine ⟨rfl, ?_⟩
    rw [heldKeys_append_left]
    rfl
  untouched := by
    intro trace op answer after stepped
    obtain ⟨_, rfl⟩ := stepped
    exact entriesOf_append_left trace op answer

/-- Nothing is held and nothing was recorded. -/
structure Fresh (trace : List (Event GatewaySig)) : Prop where
  held : heldKeys trace = ∅
  entries : entriesOf trace = []

theorem Fresh.host {op : HostOp} (fresh : Fresh trace)
    (answer : HostSig.Ans op) (silent : ∀ entry, op ≠ .record entry) :
    Fresh (trace ++ [⟨.inr op, answer⟩]) := by
  constructor
  · rw [heldKeys_append_right, fresh.held]
  · have noEntry : recorded ⟨.inr op, answer⟩ = none := by
      cases op with
      | record entry => exact absurd rfl (silent entry)
      | _ => rfl
    simp [entriesOf, noEntry, ← fresh.entries]

/-- A completion comes with the one entry of its request, which has the price
and the units of its receipt. -/
def Booked (outcome : Except PyExc Response)
    (trace : List (Event GatewaySig)) : Prop :=
  ∀ response, outcome = .ok response → response.status = 200 →
    ∃ entry receipt, entriesOf trace = [entry] ∧
      response.content.get "sip_receipt" = .obj receipt ∧
      Dict.get receipt "price_amount" = .str entry.amount ∧
      Dict.get receipt "price_units" = .str entry.unit

theorem booked_error (error : PyExc) : Booked (.error error) trace := nofun

theorem booked_other {response : Response} (notServed : response.status ≠ 200) :
    Booked (.ok response) trace := by
  intro other same status
  cases same
  exact absurd status notServed

theorem booked_refusal (refusal : Refusal) (notServed : refusal.status ≠ 200) :
    Booked refusal.response trace := by
  intro response answered status
  rw [(jsonResponse_ok answered).2] at status
  exact absurd status notServed

section

variable {gateway : Gateway} {order : Order} {required : Text}
  {result : ChatResult} {started completed : DateTime}

/-- The price and the units of a signed receipt. -/
theorem signedReceipt_price {price : Text} {receipt : Dict}
    (signed : signedReceipt P gateway order result price started completed =
      .ok receipt) :
    receipt.get "price_amount" = .str price ∧
      receipt.get "price_units" = .str gateway.priceUnits := by
  unfold signedReceipt at signed
  obtain ⟨responseHash, _, signed⟩ := bind_eq_ok.mp signed
  obtain ⟨requestHash, _, signed⟩ := bind_eq_ok.mp signed
  obtain ⟨unsigned, built, signed⟩ := bind_eq_ok.mp signed
  unfold buildReceipt at built
  obtain ⟨startedAt, _, built⟩ := bind_eq_ok.mp built
  obtain ⟨completedAt, _, built⟩ := bind_eq_ok.mp built
  cases built
  obtain ⟨message, _, signed⟩ := bind_eq_ok.mp signed
  cases signed
  exact ⟨rfl, rfl⟩

theorem answer_booked
    (recordedEntry : entriesOf trace = [ledgerEntry P gateway order required]) :
    Booked (answer (priceAmount gateway) P gateway order (some required) result
      started completed) trace := by
  intro response answered _
  obtain ⟨_, price, receipt, isPrice, signed, content⟩ := answer_ok answered
  obtain rfl := isPrice required rfl
  obtain ⟨amount, unit⟩ := signedReceipt_price signed
  refine ⟨_, receipt, recordedEntry, ?_, amount, unit⟩
  rw [content]
  rfl

end

theorem wp_host {α : Type} {op : HostOp}
    {next : HostSig.Ans op → Prog GatewaySig PyExc α}
    {post : Except PyExc α → List (Event GatewaySig) → Prop}
    (fresh : Fresh trace) (silent : ∀ entry, op ≠ .record entry)
    (continues : ∀ answer after, Fresh after →
      (next answer).wp (bookWorld P call) post after) :
    (Prog.call (.inr op) next : Prog GatewaySig PyExc α).wp
      (bookWorld P call) post trace := by
  constructor
  · cases op with
    | record entry => exact absurd rfl (silent entry)
    | _ => trivial
  · intro answer after stepped
    obtain ⟨_, rfl⟩ := stepped
    exact continues answer _ (fresh.host answer silent)

theorem wp_readClock {α : Type} {rest : DateTime → Prog GatewaySig PyExc α}
    {post : Except PyExc α → List (Event GatewaySig) → Prop}
    (fresh : Fresh trace)
    (continues : ∀ moment after, Fresh after →
      (rest moment).wp (bookWorld P call) post after) :
    (readClock.bind rest).wp (bookWorld P call) post trace :=
  @wp_host P call trace α .now rest post fresh nofun continues

theorem wp_allow {α : Type} {rest : Bool → Prog GatewaySig PyExc α}
    {post : Except PyExc α → List (Event GatewaySig) → Prop}
    (fresh : Fresh trace)
    (continues : ∀ allows after, Fresh after →
      (rest allows).wp (bookWorld P call) post after) :
    (allow.bind rest).wp (bookWorld P call) post trace :=
  @wp_host P call trace α .allow rest post fresh nofun continues

theorem wp_chat {α : Type} {model : Text} {messages : List Json}
    {maxTokens : Int}
    {rest : Except PyExc ChatResult → Prog GatewaySig PyExc α}
    {post : Except PyExc α → List (Event GatewaySig) → Prop}
    (fresh : Fresh trace)
    (continues : ∀ answered after, Fresh after →
      (rest answered).wp (bookWorld P call) post after) :
    ((chat model messages maxTokens).bind rest).wp (bookWorld P call) post
      trace :=
  @wp_host P call trace α (.chat model messages maxTokens) rest post fresh
    nofun continues

/-- A redemption by a fresh request. -/
theorem wp_redeem {order : Order} {required : Text} {moment : DateTime}
    {commit : Bool} (fresh : Fresh trace)
    (admitted : admission call.gateway call.request = .ok (.ok order))
    (priced : requiredPrice call.gateway order = .ok required) :
    ((redeem P (termsAt P call.gateway order required moment) order.payment
      commit).left : Prog GatewaySig PyExc RedeemResult).wp
      (bookWorld P call)
      (RedeemPost P (termsAt P call.gateway order required moment)
        order.payment commit heldKeys entriesOf trace) trace := by
  rw [Prog.wp_left]
  apply (bookWorld_keyWorld P call).wp_redeem fresh.entries fresh.held
  intro settled key member
  exact ⟨order, required, ⟨admitted, priced, moment, settled⟩, member⟩

/-- Recording the entry of a request that holds its keys. -/
theorem wp_creditLedger {order : Order} {required : Text}
    {post : Except PyExc Unit → List (Event GatewaySig) → Prop}
    (keeping : call.gateway.keepsLedger = true)
    (backs : Backs P call order required) (noEntry : entriesOf trace = [])
    (holds : heldKeys trace = {key | key ∈ paymentKeys order.payment})
    (continues : ∀ after, entriesOf after =
      [ledgerEntry P call.gateway order required] → post (.ok ()) after) :
    (creditLedger P call.gateway order required).wp (bookWorld P call) post
      trace := by
  unfold creditLedger
  rw [if_pos keeping]
  refine ⟨⟨noEntry, order, required, backs, rfl, holds⟩, ?_⟩
  intro answer after stepped
  obtain ⟨answered, rfl⟩ := stepped
  obtain rfl : answer = .ok () := answered
  apply continues
  have isEntry : recorded ⟨.inr (.record (ledgerEntry P call.gateway order
      required)), .ok ()⟩ =
        some (ledgerEntry P call.gateway order required) := rfl
  simp only [entriesOf] at noEntry ⊢
  rw [List.filterMap_append, noEntry, List.filterMap_cons, isEntry,
    List.filterMap_nil, List.nil_append]

private theorem wp_commitPayment {order : Order} {required : Text}
    (charging : call.Charging) (fresh : Fresh trace)
    (admitted : admission call.gateway call.request = .ok (.ok order))
    (priced : requiredPrice call.gateway order = .ok required) :
    (commitPayment P call.gateway order (some required)).wp (bookWorld P call)
      (fun outcome after =>
        (∃ error, outcome = .error error) ∨
        (∃ challenge, outcome = .ok (some challenge) ∧
          challenge.status ≠ 200) ∨
        (outcome = .ok none ∧ entriesOf after =
          [ledgerEntry P call.gateway order required])) trace := by
  unfold commitPayment
  dsimp only
  rw [Prog.bind_eq]
  apply wp_readClock fresh
  intro moment started fresh
  rw [Prog.bind_eq, Prog.wp_bind]
  refine Prog.wp_mono _ ?_ (wp_redeem fresh admitted priced)
  intro outcome after redeemed
  cases outcome with
  | error error => exact .inl ⟨error, rfl⟩
  | ok result =>
      dsimp only [Prog.afterBind]
      cases ok : result.ok with
      | true =>
          have isRedeemed := (redeemed_ok result).mpr ok
          have noEntry : entriesOf after = [] :=
            redeemed.others.trans fresh.entries
          have holds := redeemed.keys isRedeemed
          rw [if_pos rfl] at holds ⊢
          rw [Prog.bind_eq, Prog.wp_bind]
          apply wp_creditLedger charging.keeping
            ⟨admitted, priced, moment, redeemed.settled isRedeemed⟩ noEntry
            holds
          intro last isEntry
          exact .inr (.inr ⟨rfl, isEntry⟩)
      | false =>
          rw [if_neg Bool.false_ne_true, Prog.bind_eq, Prog.wp_bind,
            Prog.wp_ofExcept]
          cases challenged : paymentRequiredResponse call.gateway required with
          | error error => exact .inl ⟨error, rfl⟩
          | ok challenge =>
              refine .inr (.inl ⟨challenge, rfl, ?_⟩)
              rw [paymentRequiredResponse_ok challenged]
              decide

theorem wp_serve {order : Order} {required : Text} (charging : call.Charging)
    (fresh : Fresh trace)
    (admitted : admission call.gateway call.request = .ok (.ok order))
    (priced : requiredPrice call.gateway order = .ok required) :
    (serve (priceAmount call.gateway) P call.gateway order
      (some required)).wp (bookWorld P call)
      Booked trace := by
  unfold serve
  rw [Prog.bind_eq]
  apply wp_readClock fresh
  intro started trace fresh
  rw [Prog.bind_eq]
  apply wp_chat fresh
  intro answered trace fresh
  cases answered with
  | error error =>
      dsimp only
      rw [Prog.wp_ofExcept]
      exact booked_refusal _ (by decide)
  | ok result =>
      dsimp only
      rw [Prog.bind_eq]
      apply wp_readClock fresh
      intro completed trace fresh
      rw [Prog.bind_eq, Prog.wp_bind]
      refine Prog.wp_mono _ ?_ (wp_commitPayment charging fresh admitted
        priced)
      intro outcome after committed
      rcases committed with ⟨error, rfl⟩ | ⟨challenge, rfl, notServed⟩ |
        ⟨rfl, isEntry⟩
      · exact booked_error error
      · exact booked_other notServed
      · dsimp only [Prog.afterBind]
        rw [Prog.wp_ofExcept]
        exact answer_booked isEntry

private theorem wp_handleOrder {order : Order} (charging : call.Charging)
    (fresh : Fresh trace)
    (admitted : admission call.gateway call.request = .ok (.ok order)) :
    (handleOrder (priceAmount call.gateway) P call.gateway order).wp
      (bookWorld P call) Booked trace := by
  unfold handleOrder verifyPayment
  simp only [charging.paying, Bool.not_true, Bool.false_eq_true, if_false]
  rw [Prog.bind_eq, Prog.wp_bind, Prog.bind_eq, Prog.wp_bind,
    Prog.wp_ofExcept]
  cases priced : priceAmount call.gateway (billedInput order)
      order.maxTokens with
  | error error => exact booked_error error
  | ok required =>
      dsimp only [Prog.afterBind]
      rw [Prog.bind_eq]
      apply wp_readClock fresh
      intro moment trace fresh
      rw [Prog.bind_eq, Prog.wp_bind]
      refine Prog.wp_mono _ ?_ (wp_redeem fresh admitted priced)
      intro outcome after redeemed
      cases outcome with
      | error error => exact booked_error error
      | ok check =>
          dsimp only [Prog.afterBind]
          cases ok : check.ok with
          | true =>
              have still : Fresh after :=
                ⟨redeemed.keys ((redeemed_ok check).mpr ok),
                  redeemed.others.trans fresh.entries⟩
              exact wp_serve charging still admitted priced
          | false =>
              rw [if_neg Bool.false_ne_true, Prog.bind_eq, Prog.wp_bind,
                Prog.wp_ofExcept]
              cases challenged : paymentRequiredResponse call.gateway
                  required with
              | error error => exact booked_error error
              | ok challenge =>
                  apply booked_other
                  rw [paymentRequiredResponse_ok challenged]
                  decide

/-- **The books of one request** are kept. -/
theorem wp_program (P : Platform) (charging : call.Charging) :
    (call.program P).wp (bookWorld P call) Booked [] := by
  have fresh : Fresh [] := ⟨rfl, rfl⟩
  unfold GatewayCall.program chatCompletions chatCompletionsBy
  rw [Prog.bind_eq, Prog.wp_bind, Prog.wp_ofExcept]
  cases admitted : admission call.gateway call.request with
  | error error => exact booked_error error
  | ok decision =>
      cases decision with
      | error refusal =>
          dsimp only [Prog.afterBind]
          rw [Prog.wp_ofExcept]
          exact booked_refusal refusal (admission_refused admitted)
      | ok order =>
          dsimp only [Prog.afterBind]
          split
          · rw [Prog.bind_eq]
            apply wp_allow fresh
            intro allows trace fresh
            cases allows with
            | false =>
                simp only [Bool.not_false, if_true]
                rw [Prog.wp_ofExcept]
                exact booked_refusal _ (by decide)
            | true => exact wp_handleOrder charging fresh admitted
          · exact wp_handleOrder charging fresh admitted

end SovereignInference.SipGateway
