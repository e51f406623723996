import SovereignInference.Effects.Interleaving
import SovereignInference.SipPic.Agreement
import SovereignInference.SipRouter.Guarantees

/-!
# Payments under a quote

The client pays the price of a challenge without looking at the quote it holds;
the only comparison comes after the payment, with the receipt.  So what it
releases stays under the quote where the challenges do, and the vouchers that
are picked for them.
-/

namespace SovereignInference.SipRouter

open Python Effects SipProtocol SipPic

variable {P : Platform} {options : ChatOptions} {client : HttpClient}
  {candidate : ProviderEntry} {requestId : Text} {state : NetworkState}
  {meets : NetworkState → RouterEvent → Prop}

/-- Every call was permitted by what came before it. -/
def Kept (permits : List RouterEvent → RouterOp → Prop)
    (trace : List RouterEvent) : Prop :=
  ∀ before event after, trace = before ++ event :: after →
    permits before event.op

/-- Runs in which the calls keep a rule about the trace. -/
abbrev keeping (permits : List RouterEvent → RouterOp → Prop)
    (meets : NetworkState → RouterEvent → Prop) :
    World RouterSig NetworkState :=
  network (fun state op => permits state.trace op) meets

theorem kept_of_wp {α : Type} {permits : List RouterEvent → RouterOp → Prop}
    {program : RouterProg α} {final : NetworkState}
    {outcome : Except RouterExc α}
    {post : Except RouterExc α → NetworkState → Prop}
    (run : Exec (freeNetwork meets) state program final outcome)
    (safe : program.wp (keeping permits meets) post state)
    (kept : Kept permits state.trace) : Kept permits final.trace := by
  induction run with
  | ret => exact kept
  | raise => exact kept
  | @call state middle final op answer next outcome stepped rest induction =>
      obtain ⟨permitted, safe⟩ := (wp_call_network op next).mp safe
      obtain ⟨possible, met, rfl⟩ := stepped
      apply induction (safe answer possible met)
      intro before event after split
      rcases last_or_earlier split with ⟨rfl, rfl, rfl⟩ | ⟨others, _, earlier⟩
      · exact permitted
      · exact kept before event others earlier

/-- A JSON object in an answer with the given status. -/
def objectOf (status : Nat) (response : Response) : Option Dict :=
  if response.statusCode = status then
    response.json.toOption.bind Json.asDict
  else none

/-- The client and the object of a quote. -/
def quoteAnswered : RouterEvent → Option (HttpClient × Dict)
  | ⟨.post client path _ _, .ok response⟩ =>
      if path = quotePath then (objectOf 200 response).map fun quote =>
        (client, quote)
      else none
  | _ => none

/-- The client and the challenge of an answer that asks for a payment. -/
def challengeAnswered : RouterEvent → Option (HttpClient × Dict)
  | ⟨.post client path _ _, .ok response⟩ =>
      if path = completionsPath then
        ((objectOf 402 response).bind fun body =>
          challengeOf (.obj body)).map fun challenge => (client, challenge)
      else none
  | _ => none

def lastQuote (trace : List RouterEvent) : Option (HttpClient × Dict) :=
  trace.reverse.findSome? quoteAnswered

def lastChallenge (trace : List RouterEvent) : Option (HttpClient × Dict) :=
  trace.reverse.findSome? challengeAnswered

theorem challengeAnswered_eq {path : Text} {headers body : Dict}
    {response : Response} {value : Json} {challenge : Dict}
    (isCompletion : path = completionsPath)
    (status : response.statusCode = 402) (isJson : response.json = .ok value)
    (challenges : challengeOf value = some challenge) :
    challengeAnswered ⟨.post client path headers body, .ok response⟩ =
      some (client, challenge) := by
  obtain ⟨fields, isDict, _⟩ := Option.bind_eq_some_iff.mp challenges
  rw [Json.asDict_eq_some.mp isDict] at challenges isJson
  simp [challengeAnswered, objectOf, isCompletion, status, isJson,
    Except.toOption, Json.asDict, challenges]

theorem quiet_answers {event : RouterEvent} (quiet : contactOf event = none) :
    quoteAnswered event = none ∧ challengeAnswered event = none := by
  obtain ⟨op, answer⟩ := event
  cases op with
  | post client path headers body => cases quiet
  | _ => exact ⟨rfl, rfl⟩

theorem Quiet.findLast {before after : NetworkState}
    (quiet : Quiet before after) {β : Type} {select : RouterEvent → Option β}
    (ignores : ∀ event, contactOf event = none → select event = none) :
    after.trace.reverse.findSome? select =
      before.trace.reverse.findSome? select := by
  obtain ⟨later, same, silent⟩ := quiet
  rw [same, List.reverse_append, List.findSome?_append,
    List.findSome?_eq_none_iff.mpr]
  · rfl
  · intro event member
    exact ignores event (silent event (List.mem_reverse.mp member))

theorem Quiet.lastQuote {before after : NetworkState}
    (quiet : Quiet before after) :
    lastQuote after.trace = lastQuote before.trace :=
  quiet.findLast fun _ silent => (quiet_answers silent).1

theorem Quiet.lastChallenge {before after : NetworkState}
    (quiet : Quiet before after) :
    lastChallenge after.trace = lastChallenge before.trace :=
  quiet.findLast fun _ silent => (quiet_answers silent).2

/-- The provider behind a client. -/
def candidateOf (options : ChatOptions) (registry : List ProviderEntry)
    (client : HttpClient) : Option ProviderEntry :=
  (candidatesOf options registry).toOption.bind fun candidates =>
    candidates[client.attempt]?

/-- The denominations of vouchers added up without rounding, if all of them are
in the unit. -/
def vouchersTotal (unit : Text) : List Json → Decimal → Option Decimal
  | [], total => some total
  | voucher :: rest, total => do
      let fields ← voucher.asDict
      if !(fields.get "unit").isStr unit then none
      let amount ← (heldAmount fields).toOption
      vouchersTotal unit rest (← (total.add .exact amount).toOption)

/-- What a payment is worth in a unit: its vouchers, or the amount it states. -/
def paymentTotal (unit : Text) (payment : Dict) : Option Decimal :=
  if (payment.get "scheme").isStr "pic" then
    vouchersTotal unit ((payment.get "vouchers").asList.getD []) .zero
  else do
    let stated ← (payment.get "payment").asDict
    if !(stated.get "unit").isStr unit then none
    (Decimal.parse (← (stated.get "amount").asStr)).toOption

/-- The price of the challenge is at most that of the quote, in its units. -/
def WithinCeiling (P : Platform) (quote challenge : Dict) : Prop :=
  (∃ price ceiling, priceOf P (challenge.get "price_amount") = .ok price ∧
    priceOf P (quote.get "max_price") = .ok ceiling ∧
      price.le ceiling = .ok true) ∧
  ∃ unit, (challenge.get "price_units").toStr P.isPrintable = .ok unit ∧
    quote.get "price_units" = .str unit

/-- The payment is worth at most the price of the quote, in its units. -/
def PaymentWithin (P : Platform) (quote payment : Dict) : Prop :=
  ∃ ceiling unit total, priceOf P (quote.get "max_price") = .ok ceiling ∧
    quote.get "price_units" = .str unit ∧
    paymentTotal unit payment = some total ∧ total.le ceiling = .ok true

/-- The quote verifies under its key, which is that of the provider. -/
structure QuotedBy (P : Platform) (candidate : ProviderEntry) (quote : Dict) :
    Prop where
  valid : ∃ result, verifyQuote P quote = .ok result ∧ result.valid = true
  signer : (quote.get "provider_pubkey").pyEq
    (candidate.manifest.get "provider_pubkey") = true

section

variable (P : Platform) (options : ChatOptions) (registry : List ProviderEntry)

/-- The payment goes to a provider that has just signed a quote and made a
challenge, and the challenge and the payment are within the quote. -/
def CappedPayment (trace : List RouterEvent) (client : HttpClient)
    (payment : Json) : Prop :=
  ∃ candidate quote challenge fields,
    candidateOf options registry client = some candidate ∧
    lastQuote trace = some (client, quote) ∧ QuotedBy P candidate quote ∧
    lastChallenge trace = some (client, challenge) ∧
    WithinCeiling P quote challenge ∧ payment = .obj fields ∧
      PaymentWithin P quote fields

/-- What is paid is capped by the quote. -/
def PaidWithinQuote (trace : List RouterEvent) : RouterOp → Prop
  | .post client _ _ body => ∀ payment, body.find "sip_payment" = some payment →
      CappedPayment P options registry trace client payment
  | _ => True

/-- The vouchers that would be picked for the challenge are worth at most the
price of the quote. -/
def PickedWithin (wallet : List HeldVoucher) (quote challenge : Dict) : Prop :=
  ∀ price unit picked rest, Asks P challenge price unit →
    ByVoucher options challenge →
    Wallet.select P.precision wallet price unit = .ok (picked, rest) →
      ∃ ceiling total, priceOf P (quote.get "max_price") = .ok ceiling ∧
        Wallet.balance .exact unit picked .zero = .ok total ∧
          total.le ceiling = .ok true

/-- The provider sends no quote that another key has signed, and asks for no
payment that can be made but is not within its quote. -/
structure Capped (state : NetworkState) (event : RouterEvent) : Prop where
  own : ∀ client quote candidate result,
    quoteAnswered event = some (client, quote) →
      candidateOf options registry client = some candidate →
        verifyQuote P quote = .ok result → result.valid = true →
          (quote.get "provider_pubkey").pyEq
            (candidate.manifest.get "provider_pubkey") = true
  challenge : ∀ client body challenge quote payment,
    completionOf event = some (client, body) →
      body.find "sip_payment" = none →
        challengeAnswered event = some (client, challenge) →
          lastQuote state.trace = some (client, quote) →
            PaymentFor P options state.wallet challenge payment →
              WithinCeiling P quote challenge ∧
                PickedWithin P options state.wallet quote challenge

abbrev quotedNetwork : World RouterSig NetworkState :=
  keeping (PaidWithinQuote P options registry) (Capped P options registry)

end

variable {registry : List ProviderEntry}

theorem lenient_paidWithinQuote :
    Lenient fun state op =>
      PaidWithinQuote P options registry state.trace op := by
  intro state op notPost
  cases op with
  | post client path headers body =>
      exact absurd rfl (notPost client path headers body)
  | _ => trivial

/-- Picked vouchers are worth what they add up to. -/
theorem vouchersTotal_balance {unit : Text} {vouchers : List HeldVoucher}
    {total sum : Decimal}
    (inUnit : ∀ held ∈ vouchers, Wallet.isOfUnit unit held = true)
    (adds : Wallet.balance .exact unit vouchers total = .ok sum) :
    vouchersTotal unit (vouchers.map fun held => .obj held.voucher) total =
      some sum := by
  induction vouchers generalizing total with
  | nil =>
      cases adds
      rfl
  | cons held rest induction =>
      obtain ⟨isUnit, others⟩ := List.forall_mem_cons.mp inUnit
      unfold Wallet.isOfUnit at isUnit
      unfold Wallet.balance at adds
      rw [if_pos isUnit] at adds
      obtain ⟨amount, isAmount, adds⟩ := bind_eq_ok.mp adds
      obtain ⟨next, added, adds⟩ := bind_eq_ok.mp adds
      simp [vouchersTotal, Json.asDict, isUnit, isAmount, added,
        Except.toOption, induction others adds]

/-- A signed payment states the price and the unit. -/
theorem buildX402Payment_states {payer : KeyPair} {price unit nonce : Text}
    {now : DateTime} {publicKey : Json} {payment : Dict}
    (built : buildX402Payment P payer price unit nonce now publicKey
      requestId = .ok payment) :
    ∃ stated : Dict, (payment.get "scheme").isStr "pic" = false ∧
      payment.get "payment" = .obj stated ∧
      stated.get "amount" = .str price ∧ stated.get "unit" = .str unit := by
  obtain ⟨issuedAt, _, built⟩ := bind_eq_ok.mp built
  obtain ⟨signed, isSigned, built⟩ := bind_eq_ok.mp built
  cases built
  obtain ⟨message, _, rfl⟩ := signDocument_eq isSigned
  refine ⟨_, rfl, rfl, ?_, ?_⟩
  · rw [Dict.get, Dict.find_set_other (by decide)]
    rfl
  · rw [Dict.get, Dict.find_set_other (by decide)]
    rfl

/-- A payment is within the quote if the challenge is, and the vouchers picked
for it. -/
theorem PaymentFor.within {wallet : List HeldVoucher}
    {quote challenge payment : Dict}
    (paid : PaymentFor P options wallet challenge payment)
    (asked : WithinCeiling P quote challenge)
    (picks : PickedWithin P options wallet quote challenge) :
    PaymentWithin P quote payment := by
  obtain ⟨⟨stated, ceiling, isPrice, isCeiling, below⟩, unit', isUnit, units⟩ :=
    asked
  cases paid with
  | @picked price unit vouchers rest asks byVoucher selects =>
      obtain ⟨ceiling, total, isCeiling, adds, within⟩ :=
        picks price unit vouchers rest asks byVoucher selects
      rw [asks.unit, Except.ok.injEq] at isUnit
      subst isUnit
      obtain ⟨_, _, reached⟩ := Wallet.select_reaches selects
      exact ⟨ceiling, unit, total, isCeiling, units,
        vouchersTotal_balance reached.ofUnit adds, within⟩
  | @signed price unit nonce requestId payer now publicKey _ asks _ _ _ built =>
      rw [asks.unit, Except.ok.injEq] at isUnit
      subst isUnit
      rw [priceOf, asks.price, ok_bind] at isPrice
      obtain ⟨fields, notPic, carried, isAmount, inUnit⟩ :=
        buildX402Payment_states built
      refine ⟨ceiling, unit, stated, isCeiling, units, ?_, below⟩
      unfold paymentTotal
      rw [notPic, if_neg Bool.false_ne_true, carried]
      simp [Json.asDict, inUnit, isAmount, Json.asStr, Json.isStr, isPrice,
        Except.toOption]

/-- A health check makes no payment. -/
theorem wp_healthOk_quoted :
    (healthOk client).wp (quotedNetwork P options registry) (fun _ _ => True)
      state := by
  unfold healthOk
  rw [Prog.bind_eq, httpGet, Prog.bind_call, wp_call_network]
  refine ⟨trivial, ?_⟩
  intro answer _ _
  cases answer with
  | error name => trivial
  | ok response =>
      show Prog.wp _ (if response.statusCode ≠ 200 then _ else _) _ _
      split
      · trivial
      · rw [Prog.bind_eq, Prog.wp_bind, wp_lift]
        cases safeJson response <;> trivial

theorem safeJson_obj {response : Response} {fields : Dict}
    (read : safeJson response = .ok (.obj fields)) :
    response.json = .ok (.obj fields) := by
  unfold safeJson at read
  split at read
  · rename_i value isJson
    rw [isJson, ← read]
  · split_ifs at read
    cases read

/-- A quote that was fetched verifies and is the last one; the answer that
carried it was a possible one. -/
theorem wp_fetchQuote_last {rule : NetworkState → RouterOp → Prop}
    (asks : rule state (.post client quotePath (authorization options)
      (quoteRequest options requestId))) :
    (fetchQuote P options client requestId).wp (network rule meets)
      (fun outcome after => ∀ quote, outcome = .ok (some quote) →
        lastQuote after.trace = some (client, quote) ∧
        (∃ result, verifyQuote P quote = .ok result ∧ result.valid = true) ∧
        ∃ event, quoteAnswered event = some (client, quote) ∧
          meets state event) state := by
  unfold fetchQuote
  rw [Prog.bind_eq, Prog.wp_bind]
  apply wp_httpPost
  · exact asks
  · intro error _
    simp [Prog.afterBind]
  intro answer met
  cases answer with
  | error name => simp [Prog.afterBind]
  | ok response =>
      show Prog.wp _ (if response.statusCode ≠ 200 then _ else _) _ _
      split_ifs with status
      · simp
      · rw [Prog.bind_eq, Prog.wp_bind, wp_lift]
        cases read : safeJson response with
        | error error => simp [Prog.afterBind]
        | ok body =>
            show Prog.wp _ (lift _) _ _
            rw [wp_lift]
            intro quote isQuote
            cases reads : readQuote P body with
            | error error => simp [reads] at isQuote
            | ok found =>
                rw [reads] at isQuote
                cases isQuote
                obtain ⟨rfl, verified⟩ := readQuote_some reads
                have isOk : response.statusCode = 200 := by
                  simpa using status
                have answered : quoteAnswered ⟨.post client quotePath
                    (authorization options) (quoteRequest options requestId),
                      .ok response⟩ = some (client, quote) := by
                  simp [quoteAnswered, objectOf, isOk, safeJson_obj read,
                    Except.toOption, Json.asDict]
                refine ⟨?_, verified, _, answered, met⟩
                simp [lastQuote, NetworkState.after, answered]

/-- Posting a payment that is capped. -/
theorem wp_retryPaid_quoted {payment : Dict} {quote : Option Dict}
    (reserved : Option (List HeldVoucher))
    (capped : CappedPayment P options registry state.trace client
      (.obj payment)) :
    ((retryPaid options client requestId payment reserved).bind fun response =>
      judge P options response reserved quote candidate).wp
        (quotedNetwork P options registry) (fun _ _ => True) state := by
  rw [Prog.wp_bind]
  unfold retryPaid postCompletion
  rw [Prog.wp_tryCatch]
  apply wp_httpPost
  · intro posted isPosted
    cases isPosted
    exact capped
  · intro error _
    trivial
  intro answer _
  cases answer with
  | error name =>
      cases reserved with
      | none => trivial
      | some vouchers =>
          show Prog.wp _ (Prog.call _ _) _ _
          rw [wp_call_network]
          exact ⟨trivial, fun _ _ _ => trivial⟩
  | ok response =>
      show Prog.wp _ (judge P options response reserved quote candidate) _ _
      refine Prog.wp_mono _ ?_
        (wp_judge lenient_paidWithinQuote response reserved quote)
      intro outcome after _
      trivial

private theorem wp_complete_quoted {quote : Dict}
    (isCandidate : candidateOf options registry client = some candidate)
    (quotedBy : QuotedBy P candidate quote)
    (quoted : lastQuote state.trace = some (client, quote)) :
    (complete P options client candidate requestId (some quote)).wp
      (quotedNetwork P options registry) (fun _ _ => True) state := by
  unfold complete postCompletion
  rw [Prog.bind_eq, Prog.wp_bind]
  apply wp_httpPost
  · intro payment pays
    cases pays
  · intro error _
    trivial
  intro answer capped
  cases answer with
  | error name => trivial
  | ok response =>
      show Prog.wp _ (if response.statusCode = 402 then _ else _) _ _
      split_ifs with status
      · rw [Prog.bind_eq, Prog.wp_bind]
        refine Prog.wp_mono _ ?_
          (wp_preparePayment lenient_paidWithinQuote response)
        intro outcome prepared preparing
        obtain ⟨quiet, preparing⟩ := preparing
        rcases preparing with ⟨error, rfl⟩ | ⟨label, rfl, _⟩ |
          ⟨payment, reserved, rfl, asked, _⟩
        · trivial
        · trivial
        · obtain ⟨value, challenge, isJson, challenges, paid⟩ := asked
          have answered := @challengeAnswered_eq client _
            (completionHeaders options requestId) (completionBody options none)
            response value challenge rfl status isJson challenges
          obtain ⟨within, picks⟩ := capped.challenge client
            (completionBody options none) challenge quote payment rfl rfl
            answered quoted paid
          have sameQuote : lastQuote prepared.trace = some (client, quote) := by
            rw [quiet.lastQuote, ← quoted]
            simp [lastQuote, NetworkState.after, quoteAnswered,
              show completionsPath ≠ quotePath by decide]
          have sameChallenge : lastChallenge prepared.trace =
              some (client, challenge) := by
            rw [quiet.lastChallenge]
            simp [lastChallenge, NetworkState.after, answered]
          exact wp_retryPaid_quoted reserved ⟨candidate, quote, challenge,
            payment, isCandidate, sameQuote, quotedBy, sameChallenge, within,
            rfl, paid.within within picks⟩
      · refine Prog.wp_mono _ ?_
          (wp_judge lenient_paidWithinQuote response none _)
        intro outcome after _
        trivial

private theorem quoteRequest_paidWithin {headers : Dict}
    {trace : List RouterEvent} :
    PaidWithinQuote P options registry trace
      (.post client quotePath headers (quoteRequest options requestId)) := by
  intro payment paid
  cases paid

private theorem wp_serve_quoted (asks : options.getQuote = true)
    (isCandidate : candidateOf options registry client = some candidate) :
    (serve P options client candidate requestId).wp
      (quotedNetwork P options registry) (fun _ _ => True) state := by
  unfold serve
  rw [Prog.bind_eq, Prog.wp_bind]
  refine Prog.wp_mono _ ?_ wp_healthOk_quoted
  intro outcome middle _
  cases outcome with
  | error error => trivial
  | ok healthy =>
      cases healthy with
      | false => trivial
      | true =>
          simp only [Prog.afterBind, Bool.not_true, Bool.false_eq_true,
            if_false, asks, if_true]
          rw [Prog.bind_eq, Prog.wp_bind]
          refine Prog.wp_mono _ ?_ (wp_fetchQuote_last quoteRequest_paidWithin)
          intro outcome second fetched
          cases outcome with
          | error error => trivial
          | ok quote =>
              cases quote with
              | none => trivial
              | some quote =>
                  obtain ⟨isLast, ⟨result, verified, valid⟩, event, answered,
                    capped⟩ := fetched quote rfl
                  exact wp_complete_quoted isCandidate
                    ⟨⟨result, verified, valid⟩, capped.own client quote
                      candidate result answered isCandidate verified valid⟩
                    isLast

private theorem wp_tryCandidates_quoted (asks : options.getQuote = true)
    {tried rest : List ProviderEntry} {attempts : List (Text × Text)}
    (isOk : candidatesOf options registry = .ok (tried ++ rest))
    (sameLength : attempts.length = tried.length) :
    (tryCandidates P options requestId rest attempts).wp
      (quotedNetwork P options registry) (fun _ _ => True) state := by
  induction rest generalizing tried attempts state with
  | nil => trivial
  | cons candidate rest induction =>
      have isCandidate : candidateOf options registry
          ⟨attempts.length, candidate.baseUrl⟩ = some candidate := by
        simp [candidateOf, isOk, Except.toOption, sameLength]
      have goesOn : ∀ label (state : NetworkState),
          (tryCandidates P options requestId rest
            (attempts ++ [(candidate.baseUrl, label)])).wp
              (quotedNetwork P options registry) (fun _ _ => True) state := by
        intro label state
        refine @induction state (tried ++ [candidate]) _ ?_ ?_
        · rw [isOk, List.append_assoc, List.singleton_append]
        · simp [sameLength]
      unfold tryCandidates tryCandidate
      rw [Prog.bind_eq, Prog.wp_bind, Prog.bind_eq, Prog.wp_bind]
      apply wp_clientFactory
      · trivial
      intro made _
      cases made with
      | error error => trivial
      | ok _ =>
          rw [mapError_ok]
          dsimp only [Prog.afterBind]
          rw [Prog.wp_tryCatch]
          refine Prog.wp_mono _ ?_ (wp_serve_quoted asks isCandidate)
          intro outcome after _
          cases outcome with
          | ok outcome =>
              dsimp only [Prog.afterCatch, Prog.afterBind]
              cases outcome.result with
              | none => exact goesOn _ after
              | some result =>
                  dsimp only
                  rw [Prog.bind_eq, Prog.wp_bind, wp_lift]
                  cases entryPubkey candidate <;> trivial
          | error error =>
              cases error with
              | transport name => exact goesOn _ after
              | noProviderAvailable model attempts => trivial
              | raised error => trivial

private theorem wp_chat_quoted (asks : options.getQuote = true) :
    (chat P options registry).wp (quotedNetwork P options registry)
      (fun _ _ => True) state := by
  unfold chat
  rw [Prog.bind_eq, Prog.wp_bind, wp_lift]
  cases resolves : candidatesOf options registry with
  | error error => trivial
  | ok candidates =>
      rw [mapError_ok]
      dsimp only [Prog.afterBind]
      rw [Prog.bind_eq, newRequestId, Prog.bind_call, wp_call_network]
      refine ⟨trivial, ?_⟩
      intro requestId _ _
      rw [Prog.bind_ret]
      exact @wp_tryCandidates_quoted P options requestId _ registry asks []
        candidates [] resolves rfl

/-- **Payments stay within the quote where the challenges do**, and the
vouchers picked for them. -/
theorem capped_challenges_paid_within_quote {wallet : List HeldVoucher}
    {final : NetworkState} {outcome : Except RouterExc RouteResult}
    (asks : options.getQuote = true)
    (run : Exec (freeNetwork (Capped P options registry)) ⟨wallet, []⟩
      (chat P options registry) final outcome) :
    Kept (PaidWithinQuote P options registry) final.trace := by
  apply kept_of_wp run (wp_chat_quoted asks)
  intro before event after split
  simp at split

/-- Whether the challenge is within the quote. -/
def ceilingCheck (P : Platform) (quote challenge : Dict) : Bool :=
  match priceOf P (challenge.get "price_amount"),
      priceOf P (quote.get "max_price"),
      (challenge.get "price_units").toStr P.isPrintable with
  | .ok price, .ok ceiling, .ok unit =>
      decide (price.le ceiling = .ok true) &&
        (quote.get "price_units").isStr unit
  | _, _, _ => false

theorem ceilingCheck_iff {quote challenge : Dict} :
    ceilingCheck P quote challenge = true ↔
      WithinCeiling P quote challenge := by
  unfold ceilingCheck WithinCeiling
  cases priceOf P (challenge.get "price_amount") with
  | error error => simp
  | ok price =>
      cases priceOf P (quote.get "max_price") with
      | error error => simp
      | ok ceiling =>
          cases (challenge.get "price_units").toStr P.isPrintable with
          | error error => simp
          | ok unit => simp [Json.isStr_iff]

/-- Whether the vouchers picked for the challenge are within the quote. -/
def pickedCheck (P : Platform) (wallet : List HeldVoucher)
    (quote challenge : Dict) : Bool :=
  match (challenge.get "price_amount").toStr P.isPrintable,
      (challenge.get "price_units").toStr P.isPrintable with
  | .ok price, .ok unit =>
      match Wallet.select P.precision wallet price unit,
          priceOf P (quote.get "max_price") with
      | .ok (picked, _), .ok ceiling =>
          (Wallet.balance .exact unit picked .zero).toOption.any fun total =>
            decide (total.le ceiling = .ok true)
      | _, _ => false
  | _, _ => false

theorem pickedCheck_sound {wallet : List HeldVoucher} {quote challenge : Dict}
    (passes : pickedCheck P wallet quote challenge = true) :
    PickedWithin P options wallet quote challenge := by
  intro price unit picked rest asks _ selects
  unfold pickedCheck at passes
  rw [asks.price, asks.unit] at passes
  dsimp only at passes
  rw [selects] at passes
  cases isCeiling : priceOf P (quote.get "max_price") with
  | error error => simp [isCeiling] at passes
  | ok ceiling =>
      rw [isCeiling] at passes
      dsimp only at passes
      cases adds : Wallet.balance .exact unit picked .zero with
      | error error => simp [adds, Except.toOption] at passes
      | ok total =>
          refine ⟨ceiling, total, rfl, rfl, ?_⟩
          simpa [adds, Except.toOption] using passes

/-- Whether a quote is the provider's own, and a challenge and its vouchers are
within the quote before it. -/
def cappedCheck (P : Platform) (options : ChatOptions)
    (registry : List ProviderEntry) (state : NetworkState)
    (event : RouterEvent) : Bool :=
  ((quoteAnswered event).all fun answered =>
    (candidateOf options registry answered.1).all fun candidate =>
      (answered.2.get "provider_pubkey").pyEq
        (candidate.manifest.get "provider_pubkey")) &&
  match lastQuote state.trace, challengeAnswered event with
  | some (_, quote), some (_, challenge) =>
      ceilingCheck P quote challenge &&
        pickedCheck P state.wallet quote challenge
  | _, _ => true

theorem cappedCheck_sound (state : NetworkState) (event : RouterEvent)
    (passes : cappedCheck P options registry state event = true) :
    Capped P options registry state event := by
  unfold cappedCheck at passes
  rw [Bool.and_eq_true] at passes
  obtain ⟨own, within⟩ := passes
  constructor
  · intro client quote candidate result answered isCandidate _ _
    simpa [answered, isCandidate] using own
  · intro client body challenge quote payment _ _ challenged quoted _
    rw [quoted, challenged] at within
    dsimp only at within
    rw [Bool.and_eq_true] at within
    exact ⟨ceilingCheck_iff.mp within.1, pickedCheck_sound within.2⟩

/-- The event at the position is a payment for a challenge above the quote
before it. -/
def overpaidAt (P : Platform) (events : List RouterEvent) (position : Nat) :
    Bool :=
  match events[position]?, lastQuote (events.take position),
      lastChallenge (events.take position) with
  | some ⟨.post _ _ _ body, _⟩, some (_, quote), some (_, challenge) =>
      (body.find "sip_payment").isSome && !ceilingCheck P quote challenge
  | _, _, _ => false

theorem not_kept_of_overpaid {events : List RouterEvent} {position : Nat}
    (overpaid : overpaidAt P events position = true) :
    ¬ Kept (PaidWithinQuote P options registry) events := by
  intro kept
  unfold overpaidAt at overpaid
  split at overpaid
  · rename_i client path headers body answer _ quote _ challenge found isQuote
      isChallenge
    obtain ⟨inside, isEvent⟩ := List.getElem?_eq_some_iff.mp found
    have split : events = events.take position ++
        ⟨.post client path headers body, answer⟩ ::
          events.drop (position + 1) := by
      rw [← isEvent, ← List.drop_eq_getElem_cons inside,
        List.take_append_drop]
    rw [Bool.and_eq_true] at overpaid
    obtain ⟨pays, above⟩ := overpaid
    obtain ⟨payment, isPayment⟩ := Option.isSome_iff_exists.mp pays
    obtain ⟨_, stated, asked, _, _, sameQuote, _, sameChallenge, within, _⟩ :=
      kept _ _ _ split payment isPayment
    rw [isQuote, Option.some.injEq, Prod.mk.injEq] at sameQuote
    rw [isChallenge, Option.some.injEq, Prod.mk.injEq] at sameChallenge
    rw [sameQuote.2, sameChallenge.2, ceilingCheck_iff.mpr within] at above
    cases above
  · cases overpaid

def quotedPayingOptions : ChatOptions where
  model := "m"
  messages := []
  getQuote := true
  wallet := true

def fiveWallet : List HeldVoucher :=
  [⟨0, [("unit", .str "pic"), ("denomination", .str "5")]⟩]

/-- The provider quotes at most 1, asks for the given price, and signs a
receipt for 1. -/
def quotedThenAsks (price : Text) : Script where
  requestId := "r"
  nonce := "n"
  now := ⟨63902822460000000, some 0⟩
  answers := [healthyAnswer, .ok ⟨200, .ok (.obj signedQuote)⟩,
    challengeAnswer (paymentRequired price "pic" [] ["pic"]),
    servedAnswer "hi" (.obj signedReceipt)]

/-- The client pays 5 under a quote of 1, and returns the answer. -/
theorem paid_above_quote :
    ∃ final result,
      Exec anyNetwork ⟨fiveWallet, []⟩
        (chat routeTable.platform quotedPayingOptions oneEntry) final
        (.ok result) ∧
      ¬ Kept (PaidWithinQuote routeTable.platform quotedPayingOptions oneEntry)
        final.trace := by
  have run := (quotedThenAsks "5").exec
    (chat routeTable.platform quotedPayingOptions oneEntry) fiveWallet
  have both : ((quotedThenAsks "5").run
      (chat routeTable.platform quotedPayingOptions oneEntry)
        fiveWallet).1.toBool = true ∧
      overpaidAt routeTable.platform ((quotedThenAsks "5").run
        (chat routeTable.platform quotedPayingOptions oneEntry)
          fiveWallet).2.1.trace 7 = true := by
    decide +kernel
  obtain ⟨serves, overpaid⟩ := both
  cases ran : ((quotedThenAsks "5").run
      (chat routeTable.platform quotedPayingOptions oneEntry) fiveWallet).1 with
  | error error =>
      rw [ran] at serves
      cases serves
  | ok result =>
      rw [ran] at run
      exact ⟨_, result, run, not_kept_of_overpaid overpaid⟩

def oneWallet : List HeldVoucher :=
  [⟨0, [("unit", .str "pic"), ("denomination", .str "1")]⟩]

/-- The voucher of 1 is posted under the quote of 1. -/
theorem capped_challenges_paid_within_quote_one : ∃ final result,
    Exec (freeNetwork
        (Capped routeTable.platform quotedPayingOptions oneEntry))
      ⟨oneWallet, []⟩
      (chat routeTable.platform quotedPayingOptions oneEntry) final
      (.ok result) ∧
    ((lastCompletion final.trace).bind fun posted =>
      posted.2.find "sip_payment").isSome = true ∧
    Kept (PaidWithinQuote routeTable.platform quotedPayingOptions oneEntry)
      final.trace := by
  have passed : (quotedThenAsks "1").passes
      (cappedCheck routeTable.platform quotedPayingOptions oneEntry)
      (chat routeTable.platform quotedPayingOptions oneEntry)
      (⟨oneWallet, []⟩, (quotedThenAsks "1").answers) = true := by
    decide +kernel
  have run := (quotedThenAsks "1").exec_passing cappedCheck_sound _ _ passed
  have both : ((quotedThenAsks "1").run
      (chat routeTable.platform quotedPayingOptions oneEntry)
        oneWallet).1.toBool = true ∧
      ((lastCompletion ((quotedThenAsks "1").run
        (chat routeTable.platform quotedPayingOptions oneEntry)
          oneWallet).2.1.trace).bind fun posted =>
            posted.2.find "sip_payment").isSome = true := by
    decide +kernel
  unfold Script.run at both
  revert run both
  generalize (scripted (quotedThenAsks "1")).run _ _ = ended
  obtain ⟨outcome, final, answers⟩ := ended
  rintro run ⟨serves, pays⟩
  cases outcome with
  | error error => cases serves
  | ok result =>
      exact ⟨final, result, run, pays,
        capped_challenges_paid_within_quote rfl run⟩

end SovereignInference.SipRouter
