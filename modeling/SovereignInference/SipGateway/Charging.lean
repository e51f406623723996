import SovereignInference.SipGateway.Answer
import SovereignInference.SipPic.FaultyGuard

/-!
# What one request is charged

A request alone with its gateway.  It is charged when it is admitted, its
payment settles at the verification and at the commit, the model answers, and
the first key can be spent; otherwise the stores stay as they were.  Once
charged the other keys still have to be spent, and the request has to be
credited and answered.
-/

namespace SovereignInference.SipGateway

open Python Effects SipProtocol SipPic

/-- The surroundings of one request: the readings of the clock, the answers of
the rate limiter and of the runtime adapter, what becomes of writing the
ledger, and the calls of the spent set that raise. -/
structure Host where
  clock : Nat → DateTime
  allows : Bool
  adapter : Text → List Json → Int → Except PyExc ChatResult
  saves : Except PyExc Unit
  faults : Nat → Option PyExc := fun _ => none

/-- The stores, and how often the clock was read and the spent set called. -/
structure HostState where
  spent : Finset Text
  ledger : List LedgerEntry
  readings : Nat
  asked : Nat

/-- The spent set with the number of its calls. -/
def HostState.guard (state : HostState) : Finset Text × Nat :=
  (state.spent, state.asked)

@[simp] theorem HostState.guard_eq (state : HostState) :
    state.guard = (state.spent, state.asked) := rfl

def HostState.withGuard (state : HostState) (guard : Finset Text × Nat) :
    HostState :=
  { state with spent := guard.1, asked := guard.2 }

/-- The state after so many calls of the spent set. -/
def HostState.heard (state : HostState) (asked : Nat) : HostState :=
  { state with asked }

def HostState.ticked (state : HostState) : HostState :=
  { state with readings := state.readings + 1 }

namespace Host

variable (host : Host)

def handler : Handler GatewaySig HostState where
  respond := fun state op =>
    match op with
    | .inl op =>
        let response := (faultyTable true host.faults).respond state.guard op
        (response.1, state.withGuard response.2)
    | .inr .now => (host.clock state.readings, state.ticked)
    | .inr .allow => (host.allows, state)
    | .inr (.chat model messages maxTokens) =>
        (host.adapter model messages maxTokens, state)
    | .inr (.record entry) =>
        let (saved, ledger) := Ledger.record state.ledger entry host.saves
        (saved, { state with ledger })

theorem handler_focuses :
    host.handler.left.Focuses (faultyTable true host.faults) HostState.guard
      HostState.withGuard where
  respond := fun _ _ => rfl
  get_put := fun _ _ => rfl
  put_get := fun _ => rfl
  put_put := fun _ _ _ => rfl

variable {host} {α : Type} {state : HostState}

@[simp] theorem run_readClock (rest : DateTime → Prog GatewaySig PyExc α) :
    host.handler.run (readClock.bind rest) state =
      host.handler.run (rest (host.clock state.readings)) state.ticked := rfl

@[simp] theorem run_allow (rest : Bool → Prog GatewaySig PyExc α) :
    host.handler.run (allow.bind rest) state =
      host.handler.run (rest host.allows) state := rfl

@[simp] theorem run_chat {model : Text} {messages : List Json}
    {maxTokens : Int}
    (rest : Except PyExc ChatResult → Prog GatewaySig PyExc α) :
    host.handler.run ((chat model messages maxTokens).bind rest) state =
      host.handler.run (rest (host.adapter model messages maxTokens)) state :=
  rfl

theorem run_record (entry : LedgerEntry) :
    host.handler.run (record entry) state =
      (host.saves, { state with ledger := state.ledger ++ [entry] }) := by
  have calling : host.handler.run (record entry) state =
      host.handler.run (.ofExcept host.saves)
        { state with ledger := state.ledger ++ [entry] } := rfl
  rw [calling, Handler.run_ofExcept]

theorem run_left (program : Prog SpentSig PyExc α) :
    host.handler.run (program.left : Prog GatewaySig PyExc α) state =
      (((faultyTable true host.faults).run program state.guard).1,
        state.withGuard
          ((faultyTable true host.faults).run program state.guard).2) := by
  have lifted := Handler.run_left host.handler program state
  rw [lifted, host.handler_focuses.run]

end Host

/-- Nothing was charged, and the answer is not a completion. -/
structure Unserved (state : HostState)
    (run : Except PyExc Response × HostState) : Prop where
  spent : run.2.spent = state.spent
  ledger : run.2.ledger = state.ledger
  status : ∀ response, run.1 = .ok response → response.status ≠ 200

section

variable {P : Platform} {gateway : Gateway} {request : Request} {host : Host}
  {state : HostState} {order : Order} {required : Text}

theorem Unserved.raised (state after : HostState) (spent : after.spent = state.spent)
    (ledger : after.ledger = state.ledger) (error : PyExc) :
    Unserved state (.error error, after) :=
  ⟨spent, ledger, fun _ equality => by cases equality⟩

theorem Unserved.returned (state after : HostState)
    (spent : after.spent = state.spent) (ledger : after.ledger = state.ledger)
    {response : Response} (notServed : response.status ≠ 200) :
    Unserved state (.ok response, after) :=
  ⟨spent, ledger, fun _ equality => by cases equality; exact notServed⟩

theorem Unserved.refused (refusal : Refusal) (notServed : refusal.status ≠ 200) :
    Unserved state
      (host.handler.run (Prog.ofExcept refusal.response) state) := by
  rw [Handler.run_ofExcept]
  cases answered : refusal.response with
  | error error => exact .raised state state rfl rfl error
  | ok response =>
      apply Unserved.returned state state rfl rfl
      rw [(jsonResponse_ok answered).2]
      exact notServed

/-- A redemption of the payment passes at a reading of the clock, from a call
of the spent set on. -/
def Passes (P : Platform) (gateway : Gateway) (host : Host)
    (state : HostState) (order : Order) (required : Text)
    (reading asked : Nat) : Prop :=
  Verifies true host.faults
    (settles P (termsAt P gateway order required (host.clock reading))
      order.payment = true)
    (paymentKeys order.payment) state.spent asked

/-- The number of keys of a payment. -/
def Order.keyCount (order : Order) : Nat := (paymentKeys order.payment).length

/-- The state after a redemption that spent so many keys. -/
def HostState.spending (state : HostState) (order : Order)
    (count asked : Nat) : HostState :=
  state.withGuard
    (state.spent ∪ ((paymentKeys order.payment).take count).toFinset, asked)

@[simp] theorem spending_ledger {count asked : Nat} :
    (state.spending order count asked).ledger = state.ledger := rfl

@[simp] theorem spending_readings {count asked : Nat} :
    (state.spending order count asked).readings = state.readings := rfl

@[simp] theorem spending_none {asked : Nat} :
    state.spending order 0 asked = state.heard asked := by
  simp [HostState.spending, HostState.withGuard, HostState.heard]

/-- A redemption that does not pass leaves the stores alone. -/
theorem run_redeem_fails {reading : Nat} {commit : Bool}
    (fails : ¬ Passes P gateway host state order required reading
      state.asked) :
    ∃ outcome asked, ¬ Redeemed outcome ∧
      host.handler.run ((redeem P (termsAt P gateway order required
        (host.clock reading)) order.payment commit).left) state =
          (outcome, state.heard asked) := by
  have post := @run_redeem_faulty P
    (termsAt P gateway order required (host.clock reading)) order.payment
    commit true host.faults state.spent state.asked
  obtain ⟨notRedeemed, same⟩ := post.refused fails
  rw [Host.run_left, HostState.guard_eq]
  generalize (faultyTable true host.faults).run _ _ = run at notRedeemed same
  obtain ⟨outcome, spent, asked⟩ := run
  obtain rfl : spent = state.spent := same
  exact ⟨outcome, asked, notRedeemed, rfl⟩

/-- One that passes and does not commit only looks up. -/
theorem run_redeem_verifies {reading : Nat}
    (passes : Passes P gateway host state order required reading
      state.asked) :
    ∃ result, result.ok = true ∧
      host.handler.run ((redeem P (termsAt P gateway order required
        (host.clock reading)) order.payment false).left) state =
          (.ok result, state.spending order 0
            (state.asked + order.keyCount)) := by
  have post := @run_redeem_faulty P
    (termsAt P gateway order required (host.clock reading)) order.payment
    false true host.faults state.spent state.asked
  obtain ⟨⟨result, outcome, ok⟩, after⟩ := post.verified passes rfl
  refine ⟨result, ok, ?_⟩
  rw [Host.run_left, HostState.guard_eq,
    outcome, after, spending_none]
  rfl

/-- One that passes and commits spends all keys if no call raises. -/
theorem run_redeem_commits {reading : Nat}
    (passes : Passes P gateway host state order required reading
      state.asked)
    (calm : Calm host.faults (state.asked + order.keyCount) order.keyCount) :
    ∃ result, result.ok = true ∧
      host.handler.run ((redeem P (termsAt P gateway order required
        (host.clock reading)) order.payment true).left) state =
          (.ok result, state.spending order order.keyCount
            (state.asked + order.keyCount + order.keyCount)) := by
  have post := @run_redeem_faulty P
    (termsAt P gateway order required (host.clock reading)) order.payment
    true true host.faults state.spent state.asked
  obtain ⟨⟨result, outcome, ok⟩, after⟩ := post.committed passes rfl calm
  refine ⟨result, ok, ?_⟩
  rw [Host.run_left, HostState.guard_eq,
    outcome, after, HostState.spending, Order.keyCount, List.take_length]
  rfl

/-- One that passes and commits stops at the first call that raises. -/
theorem run_redeem_stops {reading index : Nat} {error : PyExc}
    (passes : Passes P gateway host state order required reading
      state.asked)
    (inside : index < order.keyCount)
    (calm : Calm host.faults (state.asked + order.keyCount) index)
    (raises : host.faults (state.asked + order.keyCount + index) =
      some error) :
    ∃ asked, host.handler.run ((redeem P (termsAt P gateway order required
        (host.clock reading)) order.payment true).left) state =
          (.error error, state.spending order index asked) := by
  have post := @run_redeem_faulty P
    (termsAt P gateway order required (host.clock reading)) order.payment
    true true host.faults state.spent state.asked
  have stopped := post.stopped passes rfl index error inside calm raises
  rw [Host.run_left, HostState.guard_eq,
    stopped]
  exact ⟨_, rfl⟩

private theorem run_verifyPayment (paying : gateway.requirePayment = true)
    (priced : requiredPrice gateway order = .ok required)
    (passes : Passes P gateway host state order required state.readings
      state.asked) :
    host.handler.run (verifyPayment (priceAmount gateway) P gateway order)
        state =
      (.ok (.ok (some required)),
        state.ticked.heard (state.asked + order.keyCount)) := by
  obtain ⟨result, ok, ran⟩ := @run_redeem_verifies P gateway host state.ticked
    order required state.readings passes
  rw [spending_none] at ran
  unfold requiredPrice at priced
  unfold verifyPayment
  simp only [paying, priced, Bool.not_true, Bool.false_eq_true, if_false,
    Prog.bind_eq, Prog.ofExcept_ok, Prog.bind_ret, Host.run_readClock]
  rw [Handler.run_bind, ran]
  simp [ok]
  rfl

theorem run_handleOrder_passed (paying : gateway.requirePayment = true)
    (priced : requiredPrice gateway order = .ok required)
    (passes : Passes P gateway host state order required state.readings
      state.asked) :
    host.handler.run (handleOrder (priceAmount gateway) P gateway order)
        state =
      host.handler.run (serve (priceAmount gateway) P gateway order
          (some required))
        (state.ticked.heard (state.asked + order.keyCount)) := by
  unfold handleOrder
  rw [Prog.bind_eq, Handler.run_bind, run_verifyPayment paying priced passes]

theorem run_handleOrder_unpriced (paying : gateway.requirePayment = true)
    {error : PyExc} (unpriced : requiredPrice gateway order = .error error) :
    Unserved state
      (host.handler.run (handleOrder (priceAmount gateway) P gateway order)
        state) := by
  unfold requiredPrice at unpriced
  unfold handleOrder verifyPayment
  simp only [paying, unpriced, Bool.not_true, Bool.false_eq_true, if_false,
    Prog.bind_eq, Prog.ofExcept_error, Prog.bind_raise, Handler.run_raise]
  exact .raised state state rfl rfl error

theorem run_handleOrder_challenged (paying : gateway.requirePayment = true)
    (priced : requiredPrice gateway order = .ok required)
    (fails : ¬ Passes P gateway host state order required state.readings
      state.asked) :
    Unserved state
      (host.handler.run (handleOrder (priceAmount gateway) P gateway order)
        state) := by
  unfold requiredPrice at priced
  obtain ⟨outcome, asked, refused, ran⟩ := @run_redeem_fails P gateway host
    state.ticked order required state.readings false fails
  unfold handleOrder verifyPayment
  simp only [paying, priced, Bool.not_true, Bool.false_eq_true, if_false,
    Prog.bind_eq, Prog.ofExcept_ok, Prog.bind_ret]
  rw [Handler.run_bind, Host.run_readClock, Handler.run_bind, ran]
  cases outcome with
  | error error => exact .raised state (state.ticked.heard asked) rfl rfl error
  | ok check =>
      have notOk : check.ok = false := by simpa using refused
      simp only [notOk, Bool.false_eq_true, if_false]
      cases challenged : paymentRequiredResponse gateway required with
      | error error => exact .raised state (state.ticked.heard asked) rfl rfl error
      | ok challenge =>
          apply Unserved.returned state (state.ticked.heard asked) rfl rfl
          simp [paymentRequiredResponse_ok challenged]

/-- Whether the credit of a charged request could be written. -/
def saved (gateway : Gateway) (host : Host) : Except PyExc Unit :=
  if gateway.keepsLedger then host.saves else .ok ()

/-- The state with an order in the ledger, if there is one. -/
def HostState.credited (state : HostState) (P : Platform) (gateway : Gateway)
    (order : Order) (required : Text) : HostState :=
  if gateway.keepsLedger then
    { state with
      ledger := state.ledger ++ [ledgerEntry P gateway order required] }
  else state

@[simp] theorem credited_spent :
    (state.credited P gateway order required).spent = state.spent := by
  unfold HostState.credited
  split_ifs <;> rfl

private theorem run_creditLedger :
    host.handler.run (creditLedger P gateway order required) state =
      (saved gateway host, state.credited P gateway order required) := by
  unfold creditLedger saved HostState.credited
  cases gateway.keepsLedger with
  | false => rfl
  | true => exact Host.run_record _

theorem run_commitPayment
    (passes : Passes P gateway host state order required state.readings
      state.asked)
    (calm : Calm host.faults (state.asked + order.keyCount) order.keyCount) :
    host.handler.run (commitPayment P gateway order (some required)) state =
      ((saved gateway host).map fun _ => none,
        (state.ticked.spending order order.keyCount
          (state.asked + order.keyCount + order.keyCount)).credited P gateway
            order required) := by
  obtain ⟨result, ok, ran⟩ := @run_redeem_commits P gateway host state.ticked
    order required state.readings passes calm
  unfold commitPayment
  simp only [Prog.bind_eq, Host.run_readClock]
  rw [Handler.run_bind, ran]
  simp only [ok, if_true]
  rw [Handler.run_bind, run_creditLedger]
  cases saved gateway host <;> rfl

/-- A call that raises in the commit ends the request. -/
theorem run_commitPayment_stops {index : Nat} {error : PyExc}
    (passes : Passes P gateway host state order required state.readings
      state.asked)
    (inside : index < order.keyCount)
    (calm : Calm host.faults (state.asked + order.keyCount) index)
    (raises : host.faults (state.asked + order.keyCount + index) =
      some error) :
    ∃ asked, host.handler.run (commitPayment P gateway order (some required))
      state = (.error error, state.ticked.spending order index asked) := by
  obtain ⟨asked, ran⟩ := @run_redeem_stops P gateway host state.ticked order
    required state.readings index error passes inside calm raises
  refine ⟨asked, ?_⟩
  unfold commitPayment
  simp only [Prog.bind_eq, Host.run_readClock]
  rw [Handler.run_bind, ran]

/-- What a lost commit does: it never reaches the answer. -/
theorem run_commitPayment_lost
    (fails : ¬ Passes P gateway host state order required state.readings
      state.asked) :
    ∃ asked, (∃ error, host.handler.run
      (commitPayment P gateway order (some required)) state =
        (.error error, state.ticked.heard asked)) ∨
    ∃ challenge, host.handler.run
        (commitPayment P gateway order (some required)) state =
          (.ok (some challenge), state.ticked.heard asked) ∧
            challenge.status = 402 := by
  obtain ⟨outcome, asked, refused, ran⟩ := @run_redeem_fails P gateway host
    state.ticked order required state.readings true fails
  refine ⟨asked, ?_⟩
  unfold commitPayment
  simp only [Prog.bind_eq, Host.run_readClock]
  rw [Handler.run_bind, ran]
  cases outcome with
  | error error => exact .inl ⟨error, rfl⟩
  | ok result =>
      have notOk : result.ok = false := by simpa using refused
      simp only [notOk, Bool.false_eq_true, if_false]
      cases challenged : paymentRequiredResponse gateway required with
      | error error => exact .inl ⟨error, rfl⟩
      | ok challenge =>
          exact .inr ⟨challenge, rfl, paymentRequiredResponse_ok challenged⟩

variable {result : ChatResult}

theorem run_serve_failed {error : PyExc}
    (failed : host.adapter order.model order.messages order.maxTokens =
      .error error) :
    Unserved state
      (host.handler.run (serve (priceAmount gateway) P gateway order
        (some required)) state) := by
  unfold serve
  rw [Prog.bind_eq, Host.run_readClock, Prog.bind_eq, Host.run_chat, failed]
  have refused := @Unserved.refused host state.ticked
    ⟨502, "runtime error serving the model"⟩ (by decide)
  exact ⟨refused.spent, refused.ledger, refused.status⟩

/-- The handler from the commit on, with two readings of the clock taken. -/
theorem run_serve
    (served : host.adapter order.model order.messages order.maxTokens =
      .ok result) :
    host.handler.run (serve (priceAmount gateway) P gateway order
        (some required)) state =
      host.handler.run
        ((commitPayment P gateway order (some required)).bind fun challenge =>
          match challenge with
          | some challenge => .ret challenge
          | none =>
              .ofExcept (answer (priceAmount gateway) P gateway order
                (some required) result (host.clock state.readings)
                (host.clock (state.readings + 1))))
        state.ticked.ticked := by
  unfold serve
  rw [Prog.bind_eq, Host.run_readClock, Prog.bind_eq, Host.run_chat, served]
  rfl

theorem run_serve_lost
    (served : host.adapter order.model order.messages order.maxTokens =
      .ok result)
    (fails : ¬ Passes P gateway host state order required
      (state.readings + 2) state.asked) :
    Unserved state
      (host.handler.run (serve (priceAmount gateway) P gateway order
        (some required)) state) := by
  rw [run_serve served, Handler.run_bind]
  obtain ⟨asked, ⟨error, ran⟩ | ⟨challenge, ran, status⟩⟩ :=
    @run_commitPayment_lost P gateway host state.ticked.ticked order required
      fails
  · rw [ran]
    exact .raised state (state.ticked.ticked.ticked.heard asked) rfl rfl error
  · rw [ran]
    apply Unserved.returned state (state.ticked.ticked.ticked.heard asked) rfl
      rfl
    simp [status]

/-- A commit in which a call raises. -/
theorem run_serve_stops {index : Nat} {error : PyExc}
    (served : host.adapter order.model order.messages order.maxTokens =
      .ok result)
    (passes : Passes P gateway host state order required
      (state.readings + 2) state.asked)
    (inside : index < order.keyCount)
    (calm : Calm host.faults (state.asked + order.keyCount) index)
    (raises : host.faults (state.asked + order.keyCount + index) =
      some error) :
    ∃ asked, host.handler.run (serve (priceAmount gateway) P gateway order
        (some required)) state =
      (.error error,
        state.ticked.ticked.ticked.spending order index asked) := by
  obtain ⟨asked, ran⟩ := @run_commitPayment_stops P gateway host
    state.ticked.ticked order required index error passes inside calm raises
  refine ⟨asked, ?_⟩
  rw [run_serve served, Handler.run_bind, ran]

/-- A charged request: its credit may fail to be written, and then its answer
may fail to be built. -/
theorem run_serve_charged
    (served : host.adapter order.model order.messages order.maxTokens =
      .ok result)
    (passes : Passes P gateway host state order required
      (state.readings + 2) state.asked)
    (calm : Calm host.faults (state.asked + order.keyCount) order.keyCount) :
    host.handler.run (serve (priceAmount gateway) P gateway order
        (some required)) state =
      (saved gateway host >>= fun _ =>
          answer (priceAmount gateway) P gateway order (some required) result
            (host.clock state.readings) (host.clock (state.readings + 1)),
        (state.ticked.ticked.ticked.spending order order.keyCount
          (state.asked + order.keyCount + order.keyCount)).credited P gateway
            order required) := by
  have committed := @run_commitPayment P gateway host state.ticked.ticked
    order required passes calm
  rw [run_serve served, Handler.run_bind, committed]
  cases saved gateway host with
  | error error => rfl
  | ok done => exact Handler.run_ofExcept _ _ _

/-- The limiter lets the request through, if there is one. -/
def Unlimited (gateway : Gateway) (host : Host) : Prop :=
  gateway.rateLimited = true → host.allows = true

theorem run_admitted
    (admitted : admission gateway request = .ok (.ok order))
    (unlimited : Unlimited gateway host) :
    host.handler.run (chatCompletions P gateway request) state =
      host.handler.run (handleOrder (priceAmount gateway) P gateway order)
        state := by
  unfold chatCompletions chatCompletionsBy
  rw [admitted]
  cases limited : gateway.rateLimited with
  | false => simp
  | true => simp [unlimited limited]

theorem run_limited
    (admitted : admission gateway request = .ok (.ok order))
    (limited : ¬ Unlimited gateway host) :
    Unserved state
      (host.handler.run (chatCompletions P gateway request) state) := by
  unfold Unlimited at limited
  rw [Classical.not_imp, Bool.not_eq_true] at limited
  obtain ⟨limits, denies⟩ := limited
  have refused := @Unserved.refused host state ⟨429, "rate limited"⟩ (by decide)
  unfold chatCompletions chatCompletionsBy
  simpa [admitted, limits, denies] using refused

theorem run_not_admitted
    (refused : ∀ order, admission gateway request ≠ .ok (.ok order)) :
    Unserved state
      (host.handler.run (chatCompletions P gateway request) state) := by
  unfold chatCompletions chatCompletionsBy
  cases admitted : admission gateway request with
  | error error => exact .raised state state rfl rfl error
  | ok decision =>
      cases decision with
      | error refusal => exact .refused refusal (admission_refused admitted)
      | ok order => exact absurd admitted (refused order)

/-- The call of the spent set that spends the first key: after one lookup of
every key at the verification and one at the commit. -/
def HostState.firstSpend (state : HostState) (order : Order) : Nat :=
  state.asked + order.keyCount + order.keyCount

/-- **When a request is charged.** -/
structure Charges (P : Platform) (gateway : Gateway) (request : Request)
    (host : Host) (state : HostState) (order : Order) (required : Text)
    (result : ChatResult) : Prop where
  admitted : admission gateway request = .ok (.ok order)
  unlimited : Unlimited gateway host
  priced : requiredPrice gateway order = .ok required
  verified : Passes P gateway host state order required state.readings
    state.asked
  served : host.adapter order.model order.messages order.maxTokens = .ok result
  settled : Passes P gateway host state order required (state.readings + 3)
    (state.asked + order.keyCount)
  taken : host.faults (state.firstSpend order) = none

variable {result : ChatResult}

/-- A payment that passes has a key, and spending it changes the spent set. -/
theorem spending_changes {reading asked count tick : Nat}
    (passes : Passes P gateway host state order required reading asked)
    (some : 0 < count) :
    (state.spending order count tick).spent ≠ state.spent := by
  obtain ⟨settled, fresh, _⟩ := passes
  obtain ⟨key, member⟩ := settles_paymentKeys settled
  intro same
  cases keys : paymentKeys order.payment with
  | nil => simp [keys] at member
  | cons first rest =>
      apply fresh first (by simp [keys])
      rw [← same]
      apply Finset.mem_union_right
      rw [List.mem_toFinset, keys]
      cases count with
      | zero => omega
      | succ count => exact List.mem_cons_self

/-- A charged request changes the spent set.  It is answered if no call of the
spent set raises any more, and otherwise it raises. -/
theorem run_charged (paying : gateway.requirePayment = true)
    (charges : Charges P gateway request host state order required result) :
    (host.handler.run (chatCompletions P gateway request) state).2.spent ≠
        state.spent ∧
      (Calm host.faults (state.firstSpend order) order.keyCount →
        (host.handler.run (chatCompletions P gateway request) state).1 =
          (saved gateway host >>= fun _ =>
            answer (priceAmount gateway) P gateway order (some required) result
              (host.clock (state.readings + 1))
              (host.clock (state.readings + 2)))) ∧
      (¬ Calm host.faults (state.firstSpend order) order.keyCount →
        ∃ error, (host.handler.run (chatCompletions P gateway request)
          state).1 = .error error) := by
  obtain ⟨admitted, unlimited, priced, verified, served, settled, taken⟩ :=
    charges
  rw [run_admitted admitted unlimited,
    run_handleOrder_passed paying priced verified]
  rcases calm_or_raises host.faults (state.firstSpend order)
    order.keyCount with calm | ⟨index, error, inside, calm, raises⟩
  · have charged := @run_serve_charged P gateway host
      (state.ticked.heard (state.asked + order.keyCount)) order
      required result served settled calm
    rw [charged]
    refine ⟨?_, fun _ => rfl, fun raises => absurd calm raises⟩
    rw [credited_spent]
    obtain ⟨key, member⟩ := settles_paymentKeys verified.accepted
    exact spending_changes verified (List.length_pos_of_mem member)
  · have later : 0 < index := by
      rw [Nat.pos_iff_ne_zero]
      rintro rfl
      rw [Nat.add_zero, taken] at raises
      cases raises
    obtain ⟨asked, stopped⟩ := @run_serve_stops P gateway host
      (state.ticked.heard (state.asked + order.keyCount)) order
      required result index error served settled inside calm raises
    rw [stopped]
    refine ⟨spending_changes verified later, ?_, fun _ => ⟨error, rfl⟩⟩
    intro calm
    rw [calm index inside] at raises
    cases raises

/-- A request that is not charged leaves the stores alone. -/
theorem run_not_charged (paying : gateway.requirePayment = true)
    (free : ∀ order required result,
      ¬ Charges P gateway request host state order required result) :
    Unserved state
      (host.handler.run (chatCompletions P gateway request) state) := by
  by_cases admitted : ∃ order, admission gateway request = .ok (.ok order)
  · obtain ⟨order, admitted⟩ := admitted
    by_cases unlimited : Unlimited gateway host
    · rw [run_admitted admitted unlimited]
      cases priced : requiredPrice gateway order with
      | error error => exact run_handleOrder_unpriced paying priced
      | ok required =>
          by_cases verified : Passes P gateway host state order required
              state.readings state.asked
          · rw [run_handleOrder_passed paying priced verified]
            let checked := state.ticked.heard (state.asked + order.keyCount)
            cases served : host.adapter order.model order.messages
                order.maxTokens with
            | error error =>
                have failed := @run_serve_failed P gateway host checked
                  order required error served
                exact ⟨failed.spent, failed.ledger, failed.status⟩
            | ok result =>
                by_cases settled : Passes P gateway host state order required
                    (state.readings + 3) (state.asked + order.keyCount)
                · cases taken : host.faults (state.firstSpend order) with
                  | none =>
                      exact absurd ⟨admitted, unlimited, priced, verified,
                        served, settled, taken⟩ (free order required result)
                  | some error =>
                      obtain ⟨key, member⟩ :=
                        settles_paymentKeys settled.accepted
                      obtain ⟨asked, stopped⟩ := @run_serve_stops P gateway
                        host checked order required result 0 error served
                        settled (List.length_pos_of_mem member) calm_zero taken
                      rw [stopped, spending_none]
                      exact .raised state
                        (checked.ticked.ticked.ticked.heard asked) rfl rfl error
                · have lost := @run_serve_lost P gateway host checked order
                    required result served settled
                  exact ⟨lost.spent, lost.ledger, lost.status⟩
          · exact run_handleOrder_challenged paying priced verified
    · exact run_limited admitted unlimited
  · exact run_not_admitted fun order equality => admitted ⟨order, equality⟩

end

end SovereignInference.SipGateway
