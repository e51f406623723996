import SovereignInference.SipRouter.Client

/-!
# Runs of the routing client

The surroundings of a call: a wallet that the client alone uses, and everything
that was asked and answered.  Providers, clock and nonces answer as they like;
a rule on the calls and a condition on the answers restrict the runs looked at.
-/

namespace SovereignInference.SipRouter

open Python Effects SipProtocol SipPic

abbrev RouterEvent := Event RouterSig

structure NetworkState where
  wallet : List HeldVoucher
  trace : List RouterEvent

/-- The wallet after an event. -/
def walletAfter (wallet : List HeldVoucher) : RouterEvent → List HeldVoucher
  | ⟨.keepVouchers held, _⟩ => held
  | ⟨.addVouchers vouchers, _⟩ => wallet ++ vouchers
  | _ => wallet

def NetworkState.after (state : NetworkState) (event : RouterEvent) :
    NetworkState :=
  ⟨walletAfter state.wallet event, state.trace ++ [event]⟩

/-- Only the wallet has to answer with what it holds. -/
def Possible (wallet : List HeldVoucher) : RouterEvent → Prop
  | ⟨.heldVouchers, held⟩ => held = wallet
  | _ => True

def network (rule : NetworkState → RouterOp → Prop)
    (meets : NetworkState → RouterEvent → Prop) :
    World RouterSig NetworkState where
  allowed := rule
  step := fun state op answer after =>
    Possible state.wallet ⟨op, answer⟩ ∧ meets state ⟨op, answer⟩ ∧
      after = state.after ⟨op, answer⟩

/-- The rule is only about posts. -/
def Lenient (rule : NetworkState → RouterOp → Prop) : Prop :=
  ∀ state op, (∀ client path headers body,
    op ≠ .post client path headers body) → rule state op

theorem lenient_free : Lenient fun _ _ => True := fun _ _ _ => trivial

/-- Every call is allowed and every answer possible. -/
abbrev anyNetwork : World RouterSig NetworkState :=
  network (fun _ _ => True) fun _ _ => True

variable {rule : NetworkState → RouterOp → Prop}
  {meets : NetworkState → RouterEvent → Prop} {α : Type}
  {post : Except RouterExc α → NetworkState → Prop} {state : NetworkState}

theorem wp_call_network (op : RouterOp)
    (next : RouterSig.Ans op → RouterProg α) :
    (Prog.call op next : RouterProg α).wp (network rule meets) post state ↔
      rule state op ∧ ∀ answer, Possible state.wallet ⟨op, answer⟩ →
        meets state ⟨op, answer⟩ →
          (next answer).wp (network rule meets) post
            (state.after ⟨op, answer⟩) := by
  rw [Prog.wp_call]
  refine and_congr_right fun _ => ?_
  constructor
  · intro holds answer possible met
    exact holds answer _ ⟨possible, met, rfl⟩
  · intro holds answer after stepped
    obtain ⟨possible, met, rfl⟩ := stepped
    exact holds answer possible met

theorem wp_lift {outcome : Except PyExc α} :
    (lift outcome).wp (network rule meets) post state ↔
      post (outcome.mapError .raised) state := by
  cases outcome <;> rfl

/-- A client is made, or the factory raises. -/
theorem wp_clientFactory {client : HttpClient}
    {post : Except RouterExc Unit → NetworkState → Prop}
    (allowed : rule state (.clientFactory client))
    (makes : ∀ outcome, meets state ⟨.clientFactory client, outcome⟩ →
      post (outcome.mapError .raised)
        (state.after ⟨.clientFactory client, outcome⟩)) :
    (clientFactory client).wp (network rule meets) post state := by
  unfold clientFactory
  rw [wp_call_network]
  refine ⟨allowed, ?_⟩
  intro outcome _ met
  exact wp_lift.mpr (makes outcome met)

/-- A request that cannot be encoded raises and is not sent. -/
theorem wp_httpPost {client : HttpClient} {path : Text} {headers body : Dict}
    {post : Except RouterExc Response → NetworkState → Prop}
    (allowed : rule state (.post client path headers body))
    (raises : ∀ error, encodeRequest headers body = .error error →
      post (.error (.raised error)) state)
    (answers : ∀ answer, meets state ⟨.post client path headers body, answer⟩ →
      post (answer.mapError .transport)
        (state.after ⟨.post client path headers body, answer⟩)) :
    (httpPost client path headers body).wp (network rule meets) post
      state := by
  unfold httpPost
  rw [Prog.bind_eq, Prog.wp_bind, wp_lift]
  cases encodes : encodeRequest headers body with
  | error error => exact raises error encodes
  | ok content =>
      rw [mapError_ok]
      dsimp only [Prog.afterBind]
      rw [wp_call_network]
      refine ⟨allowed, ?_⟩
      intro answer _ met
      have answered := answers answer met
      cases answer with
      | error name => exact answered
      | ok response => exact answered

/-- Nothing of the wallet is lost or doubled but what was sent. -/
def Conserves (before after : NetworkState) (sent : List HeldVoucher) : Prop :=
  (before.wallet.map (·.identity)).Nodup →
    (after.wallet ++ sent).Perm before.wallet

theorem conserves_same {before after : NetworkState}
    (sameWallet : after.wallet = before.wallet) :
    Conserves before after [] := by
  intro _
  rw [sameWallet, List.append_nil]

theorem Conserves.trans {first second third : NetworkState}
    {sent : List HeldVoucher} (start : Conserves first second [])
    (rest : Conserves second third sent) : Conserves first third sent := by
  intro nodup
  have same := start nodup
  rw [List.append_nil] at same
  exact (rest ((same.map _).nodup_iff.mpr nodup)).trans same

/-- The client of an HTTP call. -/
def contactOf : RouterEvent → Option HttpClient
  | ⟨.get client _, _⟩ => some client
  | ⟨.post client _ _ _, _⟩ => some client
  | _ => none

/-- The client and the body of a completion request. -/
def completionOf : RouterEvent → Option (HttpClient × Dict)
  | ⟨.post client path _ body, _⟩ =>
      if path = completionsPath then some (client, body) else none
  | _ => none

/-- The client of a health check, the first call of every attempt. -/
def healthCheckOf : RouterEvent → Option HttpClient
  | ⟨.get client _, _⟩ => some client
  | _ => none

/-- The vouchers that a completion request pays with. -/
def vouchersSent (body : Dict) : List Json :=
  match (body.find "sip_payment").bind Json.asDict with
  | some payment =>
      if (payment.get "scheme").isStr "pic" then
        (payment.get "vouchers").asList.getD []
      else []
  | none => []

/-- The last completion request. -/
def lastCompletion (trace : List RouterEvent) : Option (HttpClient × Dict) :=
  trace.reverse.findSome? completionOf

theorem lastCompletion_append {trace later : List RouterEvent}
    (silent : ∀ event ∈ later, completionOf event = none) :
    lastCompletion (trace ++ later) = lastCompletion trace := by
  unfold lastCompletion
  rw [List.reverse_append, List.findSome?_append,
    List.findSome?_eq_none_iff.mpr]
  · rfl
  · intro event member
    exact silent event (List.mem_reverse.mp member)

theorem lastCompletion_post (trace : List RouterEvent) (client : HttpClient)
    (headers body : Dict) (answer : Except Text Response) :
    lastCompletion (trace ++ [⟨.post client completionsPath headers body,
      answer⟩]) = some (client, body) := by
  simp [lastCompletion, completionOf]

theorem completionOf_quiet {event : RouterEvent}
    (quiet : contactOf event = none) : completionOf event = none := by
  obtain ⟨op, answer⟩ := event
  cases op with
  | post client path headers body => cases quiet
  | _ => rfl

theorem healthCheckOf_quiet {event : RouterEvent}
    (quiet : contactOf event = none) : healthCheckOf event = none := by
  obtain ⟨op, answer⟩ := event
  cases op with
  | get client path => cases quiet
  | _ => rfl

/-- No provider is contacted from one state to the other. -/
def Quiet (before after : NetworkState) : Prop :=
  ∃ later, after.trace = before.trace ++ later ∧
    ∀ event ∈ later, contactOf event = none

theorem Quiet.refl (state : NetworkState) : Quiet state state :=
  ⟨[], by simp, by simp⟩

theorem Quiet.trans {first second third : NetworkState}
    (start : Quiet first second) (rest : Quiet second third) :
    Quiet first third := by
  obtain ⟨early, sameEarly, quietEarly⟩ := start
  obtain ⟨later, sameLater, quietLater⟩ := rest
  refine ⟨early ++ later, by rw [sameLater, sameEarly, List.append_assoc], ?_⟩
  intro event member
  rcases List.mem_append.mp member with inEarly | inLater
  · exact quietEarly event inEarly
  · exact quietLater event inLater

theorem Quiet.step {event : RouterEvent} (quiet : contactOf event = none)
    (state : NetworkState) : Quiet state (state.after event) :=
  ⟨[event], rfl, by simpa using quiet⟩

theorem Quiet.lastCompletion {before after : NetworkState}
    (quiet : Quiet before after) :
    lastCompletion after.trace = lastCompletion before.trace := by
  obtain ⟨later, same, silent⟩ := quiet
  rw [same]
  apply lastCompletion_append
  intro event member
  exact completionOf_quiet (silent event member)

/-- The number of completions posted by a client. -/
def completionsBy (client : HttpClient) (trace : List RouterEvent) : Nat :=
  trace.countP fun event =>
    decide (contactOf event = some client) && (completionOf event).isSome

/-- From one state to the other only the client has contacted a provider, with
so many completions at most and these health checks. -/
def Contacts (client : HttpClient) (completions : Nat)
    (healthChecks : List HttpClient) (before after : NetworkState) : Prop :=
  ∃ later, after.trace = before.trace ++ later ∧
    (∀ event ∈ later, ∀ other, contactOf event = some other →
      other = client) ∧
    completionsBy client later ≤ completions ∧
    later.filterMap healthCheckOf = healthChecks

theorem Contacts.trans {client : HttpClient} {m n : Nat}
    {early late : List HttpClient} {first second third : NetworkState}
    (start : Contacts client m early first second)
    (rest : Contacts client n late second third) :
    Contacts client (m + n) (early ++ late) first third := by
  obtain ⟨before, sameBefore, ownBefore, fewBefore, rfl⟩ := start
  obtain ⟨after, sameAfter, ownAfter, fewAfter, rfl⟩ := rest
  refine ⟨before ++ after, by rw [sameAfter, sameBefore, List.append_assoc],
    ?_, ?_, List.filterMap_append⟩
  · intro event member
    rcases List.mem_append.mp member with inBefore | inAfter
    · exact ownBefore event inBefore
    · exact ownAfter event inAfter
  · unfold completionsBy at *
    rw [List.countP_append]
    omega

theorem Contacts.weaken {client : HttpClient} {m n : Nat}
    {healthChecks : List HttpClient} {before after : NetworkState}
    (contacts : Contacts client m healthChecks before after) (atMost : m ≤ n) :
    Contacts client n healthChecks before after := by
  obtain ⟨later, same, own, few, checks⟩ := contacts
  exact ⟨later, same, own, few.trans atMost, checks⟩

theorem Quiet.contacts {before after : NetworkState}
    (quiet : Quiet before after) (client : HttpClient) :
    Contacts client 0 [] before after := by
  obtain ⟨later, same, silent⟩ := quiet
  refine ⟨later, same, ?_, ?_, ?_⟩
  · intro event member other contacts
    rw [silent event member] at contacts
    cases contacts
  · rw [Nat.le_zero, completionsBy, List.countP_eq_zero]
    intro event member
    rw [silent event member]
    simp
  · rw [List.filterMap_eq_nil_iff]
    intro event member
    exact healthCheckOf_quiet (silent event member)

theorem Contacts.get (client : HttpClient) (path : Text)
    (answer : Except Text Response) (state : NetworkState) :
    Contacts client 0 [client] state (state.after ⟨.get client path, answer⟩) :=
  ⟨[⟨.get client path, answer⟩], rfl, by simp [contactOf],
    by simp [completionsBy, completionOf], by simp [healthCheckOf]⟩

theorem Contacts.completion (client : HttpClient) (path : Text)
    (headers body : Dict) (answer : Except Text Response)
    (state : NetworkState) :
    Contacts client 1 [] state
      (state.after ⟨.post client path headers body, answer⟩) :=
  ⟨[⟨.post client path headers body, answer⟩], rfl, by simp [contactOf],
    List.countP_le_length, by simp [healthCheckOf]⟩

theorem Contacts.otherPost (client : HttpClient) {path : Text}
    (notCompletion : path ≠ completionsPath) (headers body : Dict)
    (answer : Except Text Response) (state : NetworkState) :
    Contacts client 0 [] state
      (state.after ⟨.post client path headers body, answer⟩) :=
  ⟨[⟨.post client path headers body, answer⟩], rfl, by simp [contactOf],
    by simp [completionsBy, completionOf, notCompletion],
    by simp [healthCheckOf]⟩

/-- A fixed clock, fixed ids and nonces, and the HTTP answers in order. -/
structure Script where
  requestId : Text
  nonce : Text
  now : DateTime
  answers : List (Except Text Response)

/-- The next answer of the script, or a refused connection. -/
def nextAnswer (answers : List (Except Text Response)) :
    Except Text Response :=
  answers.head?.getD (.error "ConnectError")

def scriptedAnswer (script : Script) (wallet : List HeldVoucher)
    (answers : List (Except Text Response)) :
    (op : RouterOp) → RouterSig.Ans op × List (Except Text Response)
  | .requestId => (script.requestId, answers)
  | .now => (script.now, answers)
  | .tokenUrlsafe => (script.nonce, answers)
  | .clientFactory _ => (.ok (), answers)
  | .get _ _ => (nextAnswer answers, answers.tail)
  | .post _ _ _ _ => (nextAnswer answers, answers.tail)
  | .heldVouchers => (wallet, answers)
  | .keepVouchers _ => ((), answers)
  | .addVouchers _ => ((), answers)

def scripted (script : Script) :
    Handler RouterSig (NetworkState × List (Except Text Response)) where
  respond := fun state op =>
    let (answer, answers) := scriptedAnswer script state.1.wallet state.2 op
    (answer, (state.1.after ⟨op, answer⟩, answers))

/-- The run of a script from a wallet. -/
def Script.run (script : Script) (program : RouterProg α)
    (wallet : List HeldVoucher) :
    Except RouterExc α × NetworkState × List (Except Text Response) :=
  (scripted script).run program (⟨wallet, []⟩, script.answers)

theorem Script.exec (script : Script) (program : RouterProg α)
    (wallet : List HeldVoucher) :
    Exec anyNetwork ⟨wallet, []⟩ program (script.run program wallet).2.1
      (script.run program wallet).1 := by
  have steps : ∀ state op, anyNetwork.step (Prod.fst state) op
      ((scripted script).respond state op).1
      (Prod.fst ((scripted script).respond state op).2) := by
    intro state op
    refine ⟨?_, trivial, rfl⟩
    cases op with
    | heldVouchers => rfl
    | _ => trivial
  exact (scripted script).exec_project steps program
    (⟨wallet, []⟩, script.answers)

/-- Every event of the run passes a check. -/
def Script.passes (script : Script)
    (check : NetworkState → RouterEvent → Bool) :
    RouterProg α → NetworkState × List (Except Text Response) → Bool
  | .ret _, _ => true
  | .raise _, _ => true
  | .call op next, state =>
      let (answer, after) := (scripted script).respond state op
      check state.1 ⟨op, answer⟩ && script.passes check (next answer) after

theorem Script.exec_passing (script : Script)
    {check : NetworkState → RouterEvent → Bool}
    (sound : ∀ state event, check state event = true → meets state event)
    (program : RouterProg α)
    (start : NetworkState × List (Except Text Response))
    (passed : script.passes check program start = true) :
    Exec (network (fun _ _ => True) meets) start.1 program
      ((scripted script).run program start).2.1
      ((scripted script).run program start).1 := by
  induction program generalizing start with
  | ret value => exact .ret
  | raise error => exact .raise
  | call op next induction =>
      obtain ⟨state, answers⟩ := start
      simp only [Script.passes, Bool.and_eq_true] at passed
      have possible : Possible state.wallet
          ⟨op, (scriptedAnswer script state.wallet answers op).1⟩ := by
        cases op with
        | heldVouchers => rfl
        | _ => trivial
      exact .call ⟨possible, sound _ _ passed.1, rfl⟩ (induction _ _ passed.2)

end SovereignInference.SipRouter
