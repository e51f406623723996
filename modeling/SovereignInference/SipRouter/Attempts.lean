import SovereignInference.SipRouter.Network

/-!
# What one attempt does

An attempt contacts its own provider only, posts at most two completions, and
ends in a failure that leaves the wallet as it was or in a result that passed
the checks and cost the vouchers sent with the last completion.
-/

namespace SovereignInference.SipRouter

open Python Effects SipProtocol SipPic

variable {P : Platform} {options : ChatOptions} {client : HttpClient}
  {candidate : ProviderEntry} {requestId : Text} {state : NetworkState}
  {rule : NetworkState → RouterOp → Prop}
  {meets : NetworkState → RouterEvent → Prop}

/-- Runs in which every call is allowed. -/
abbrev freeNetwork (meets : NetworkState → RouterEvent → Prop) :
    World RouterSig NetworkState :=
  network (fun _ _ => True) meets

/-- Only a helper has raised, not an HTTP call. -/
def OnlyRaised {α : Type} (outcome : Except RouterExc α) : Prop :=
  ∀ error, outcome = .error error → ∃ raised, error = .raised raised

@[simp] theorem onlyRaised_ok {α : Type} (value : α) :
    OnlyRaised (.ok value : Except RouterExc α) := by
  intro error equality
  cases equality

@[simp] theorem onlyRaised_raised {α : Type} (error : PyExc) :
    OnlyRaised (.error (.raised error) : Except RouterExc α) := by
  intro other equality
  cases equality
  exact ⟨error, rfl⟩

/-- The quote was made by the candidate, was not expired when it was checked at
last, and covers the price of the receipt. -/
structure HonoredQuote (P : Platform) (quote : Dict) (receipt : Json)
    (candidate : ProviderEntry) (trace : List RouterEvent) : Prop where
  signer : (quote.get "provider_pubkey").pyEq
    (candidate.manifest.get "provider_pubkey") = true
  unexpired : ∃ moment : DateTime, trace.getLast? = some ⟨.now, moment⟩ ∧
    quoteIsExpired P quote moment = .ok false
  within : withinQuote P quote receipt = .ok true

/-- What the checks of a served response establish. -/
structure Trustworthy (P : Platform) (options : ChatOptions)
    (candidate : ProviderEntry) (quote : Option Dict)
    (trace : List RouterEvent) (result : Served) : Prop where
  sameQuote : result.quote = quote
  trusted : options.verifyReceipts = true →
    receiptTrusted P result.receipt candidate result.content = .ok true
  honored : ∀ stated, quote = some stated →
    HonoredQuote P stated result.receipt candidate trace

theorem wp_quoteHonored (lenient : Lenient rule) (quote : Dict)
    (receipt : Json) :
    (quoteHonored P quote receipt candidate).wp (network rule meets)
      (fun outcome after => OnlyRaised outcome ∧ Quiet state after ∧
        after.wallet = state.wallet ∧
          (outcome = .ok true →
            HonoredQuote P quote receipt candidate after.trace)) state := by
  unfold quoteHonored
  cases signer : (quote.get "provider_pubkey").pyEq
      (candidate.manifest.get "provider_pubkey") with
  | false => exact ⟨onlyRaised_ok _, Quiet.refl state, rfl, by simp⟩
  | true =>
      simp only [Bool.not_true, Bool.false_eq_true, if_false]
      rw [Prog.bind_eq, readClock, Prog.bind_call, wp_call_network]
      refine ⟨lenient _ _ nofun, ?_⟩
      intro now _ _
      have quiet : Quiet state (state.after ⟨.now, now⟩) := Quiet.step rfl state
      rw [Prog.bind_ret, Prog.bind_eq, Prog.wp_bind, wp_lift]
      cases expired : quoteIsExpired P quote now with
      | error error =>
          exact ⟨onlyRaised_raised error, quiet, rfl, by simp⟩
      | ok isExpired =>
          cases isExpired with
          | true => exact ⟨onlyRaised_ok _, quiet, rfl, by simp⟩
          | false =>
              show Prog.wp _ (lift _) _ _
              rw [wp_lift]
              cases within : withinQuote P quote receipt with
              | error error =>
                  exact ⟨onlyRaised_raised error, quiet, rfl, by simp⟩
              | ok honored =>
                  refine ⟨onlyRaised_ok _, quiet, rfl, ?_⟩
                  intro isHonored
                  cases isHonored
                  exact ⟨signer, ⟨now, List.getLast?_concat, expired⟩,
                    within⟩

theorem receiptTrusted_dict {receipt : Json} {content : Text}
    (trusted : receiptTrusted P receipt candidate content = .ok true) :
    ∃ fields, receipt = .obj fields := by
  unfold receiptTrusted at trusted
  cases isDict : receipt.asDict with
  | none => simp [isDict] at trusted
  | some fields => exact ⟨fields, Json.asDict_eq_some.mp isDict⟩

theorem withinQuote_dict {quote : Dict} {receipt : Json}
    (within : withinQuote P quote receipt = .ok true) :
    ∃ fields, receipt = .obj fields := by
  unfold withinQuote at within
  cases isDict : receipt.asDict with
  | none => simp [isDict] at within
  | some fields => exact ⟨fields, Json.asDict_eq_some.mp isDict⟩

/-- `receipt or {}` is the receipt if that is a dict. -/
theorem orElse_dict (fields : Dict) :
    orElse (.obj fields) (.obj []) = .obj fields := by
  cases fields <;> rfl

theorem httpDetail_ne_ok (status : Nat) : httpDetail status ≠ text "ok" := by
  intro same
  have firsts := congrArg List.head? same
  rw [httpDetail, List.head?_append,
    show (text "http_").head? = some 0x68 by decide, Option.some_or] at firsts
  exact absurd firsts (by decide)

/-- A failure label, and the reserved vouchers back in the wallet. -/
def FailedOver (state : NetworkState)
    (reserved : Option (List HeldVoucher))
    (outcome : Except RouterExc Attempt) (after : NetworkState) : Prop :=
  ∃ label, outcome = .ok (.failed label) ∧ label ≠ text "ok" ∧
    Quiet state after ∧ after.wallet = state.wallet ++ reserved.getD []

theorem wp_paymentFailover (lenient : Lenient rule)
    (reserved : Option (List HeldVoucher)) {detail : Text}
    (isFailure : detail ≠ text "ok") :
    (paymentFailover reserved detail).wp (network rule meets)
      (FailedOver state reserved) state := by
  unfold paymentFailover
  cases reserved with
  | none =>
      exact ⟨detail, rfl, isFailure, Quiet.refl state, by simp⟩
  | some vouchers =>
      rw [Prog.bind_eq, restore, addVouchers, Prog.bind_call,
        wp_call_network]
      refine ⟨lenient _ _ nofun, ?_⟩
      intro answer _ _
      exact ⟨_, rfl, by decide, Quiet.step rfl state, rfl⟩

/-- How an attempt ends after its last response. -/
def Judged (P : Platform) (options : ChatOptions) (candidate : ProviderEntry)
    (quote : Option Dict) (reserved : Option (List HeldVoucher))
    (state : NetworkState) (outcome : Except RouterExc Attempt)
    (after : NetworkState) : Prop :=
  FailedOver state reserved outcome after ∨
    (Quiet state after ∧ after.wallet = state.wallet ∧
      ((∃ error, outcome = .error (.raised error)) ∨
        ∃ result, outcome = .ok (.served result) ∧
          Trustworthy P options candidate quote after.trace result))

theorem wp_receiptAccepted (receipt : Json) (content : Text) :
    (receiptAccepted P options receipt candidate content).wp
      (network rule meets)
      (fun outcome after => OnlyRaised outcome ∧ after = state ∧
        (outcome = .ok true → options.verifyReceipts = true →
          receiptTrusted P receipt candidate content = .ok true)) state := by
  unfold receiptAccepted
  cases options.verifyReceipts with
  | false => exact ⟨onlyRaised_ok _, rfl, by simp⟩
  | true =>
      rw [if_pos rfl, wp_lift]
      cases receiptTrusted P receipt candidate content with
      | error error => exact ⟨onlyRaised_raised error, rfl, by simp⟩
      | ok trusted =>
          refine ⟨onlyRaised_ok _, rfl, ?_⟩
          intro isTrusted _
          cases isTrusted
          rfl

theorem wp_quoteAccepted (lenient : Lenient rule) (quote : Option Dict)
    (receipt : Json) :
    (quoteAccepted P quote receipt candidate).wp (network rule meets)
      (fun outcome after => OnlyRaised outcome ∧ Quiet state after ∧
        after.wallet = state.wallet ∧
          (outcome = .ok true → ∀ stated, quote = some stated →
            HonoredQuote P stated receipt candidate after.trace)) state := by
  cases quote with
  | none => exact ⟨onlyRaised_ok _, Quiet.refl state, rfl, by simp⟩
  | some quote =>
      refine Prog.wp_mono _ ?_ (wp_quoteHonored lenient quote receipt)
      intro outcome after checked
      obtain ⟨raised, quiet, sameWallet, honored⟩ := checked
      refine ⟨raised, quiet, sameWallet, ?_⟩
      intro isHonored stated sameQuote
      cases sameQuote
      exact honored isHonored

theorem judged_raised {error : RouterExc} {after : NetworkState}
    {quote : Option Dict} {reserved : Option (List HeldVoucher)}
    (raised : OnlyRaised (.error error : Except RouterExc Bool))
    (quiet : Quiet state after) (sameWallet : after.wallet = state.wallet) :
    Judged P options candidate quote reserved state (.error error) after := by
  obtain ⟨error, rfl⟩ := raised error rfl
  exact .inr ⟨quiet, sameWallet, .inl ⟨error, rfl⟩⟩

private theorem wp_failover (lenient : Lenient rule) {middle : NetworkState}
    (quiet : Quiet state middle) (sameWallet : middle.wallet = state.wallet)
    {quote : Option Dict} (reserved : Option (List HeldVoucher)) {detail : Text}
    (isFailure : detail ≠ text "ok") :
    (paymentFailover reserved detail).wp (network rule meets)
      (Judged P options candidate quote reserved state) middle := by
  refine Prog.wp_mono _ ?_ (wp_paymentFailover lenient reserved isFailure)
  intro outcome after failed
  obtain ⟨label, isFailed, notOk, later, wallet⟩ := failed
  rw [sameWallet] at wallet
  exact .inl ⟨label, isFailed, notOk, quiet.trans later, wallet⟩

theorem wp_judge (lenient : Lenient rule) (response : Response)
    (reserved : Option (List HeldVoucher)) (quote : Option Dict) :
    (judge P options response reserved quote candidate).wp
      (network rule meets)
      (Judged P options candidate quote reserved state) state := by
  have start := Quiet.refl state
  unfold judge
  split
  · exact wp_failover lenient start rfl reserved (httpDetail_ne_ok _)
  · rw [Prog.bind_eq, Prog.wp_bind, wp_lift]
    cases safeJson response with
    | error error => exact judged_raised (onlyRaised_raised error) start rfl
    | ok body =>
        rw [mapError_ok]
        dsimp only [Prog.afterBind]
        cases extractContent body with
        | none => exact wp_failover lenient start rfl reserved (by decide)
        | some content =>
            dsimp only
            rw [Prog.bind_eq, Prog.wp_bind]
            refine Prog.wp_mono _ ?_ (wp_receiptAccepted _ content)
            intro outcome middle checked
            obtain ⟨raised, rfl, trusted⟩ := checked
            cases outcome with
            | error error => exact judged_raised raised start rfl
            | ok isTrusted =>
                dsimp only [Prog.afterBind]
                cases isTrusted with
                | false => exact wp_failover lenient start rfl reserved (by decide)
                | true =>
                    simp only [Bool.not_true, Bool.false_eq_true, if_false]
                    rw [Prog.bind_eq, Prog.wp_bind]
                    refine Prog.wp_mono _ ?_ (wp_quoteAccepted lenient quote _)
                    intro outcome after checked
                    obtain ⟨raised, quiet, sameWallet, honored⟩ := checked
                    cases outcome with
                    | error error =>
                        exact judged_raised raised quiet sameWallet
                    | ok isHonored =>
                        dsimp only [Prog.afterBind]
                        cases isHonored with
                        | false =>
                            exact wp_failover lenient quiet sameWallet reserved
                              (by decide)
                        | true =>
                            refine .inr ⟨quiet, sameWallet,
                              .inr ⟨_, rfl, rfl, ?_, ?_⟩⟩
                            · intro verifies
                              have isTrusted := trusted rfl verifies
                              obtain ⟨fields, isDict⟩ :=
                                receiptTrusted_dict isTrusted
                              rw [isDict] at isTrusted ⊢
                              rwa [orElse_dict]
                            · intro stated isQuote
                              have honors := honored rfl stated isQuote
                              obtain ⟨fields, isDict⟩ :=
                                withinQuote_dict honors.within
                              rw [isDict] at honors ⊢
                              rwa [orElse_dict]

/-- The vouchers of a payment are the reserved ones. -/
def PaysWith (payment : Dict) (reserved : Option (List HeldVoucher)) : Prop :=
  vouchersSent (completionBody options (some payment)) =
    (reserved.getD []).map fun held => .obj held.voucher

/-- How a preparation ends: without a payment and with the wallet as it was,
or with a payment of the right kind, whose vouchers left the wallet. -/
def Prepared (options : ChatOptions) (kind : Dict → Prop)
    (state : NetworkState) (outcome : Except RouterExc Preparation)
    (after : NetworkState) : Prop :=
  Quiet state after ∧
    ((∃ error, outcome = .error (.raised error)) ∨
    (∃ label, outcome = .ok (.failover label) ∧ label ≠ text "ok" ∧
      after.wallet = state.wallet) ∨
    ∃ payment reserved, outcome = .ok (.pay payment reserved) ∧
      kind payment ∧ @PaysWith options payment reserved ∧
        Conserves state after (reserved.getD []))

theorem Prepared.weaken {kind kind' : Dict → Prop}
    {outcome : Except RouterExc Preparation} {after : NetworkState}
    (prepared : Prepared options kind state outcome after)
    (weaker : ∀ payment, kind payment → kind' payment) :
    Prepared options kind' state outcome after := by
  obtain ⟨quiet, raised | failover | ⟨payment, reserved, pays, is, rest⟩⟩ :=
    prepared
  · exact ⟨quiet, .inl raised⟩
  · exact ⟨quiet, .inr (.inl failover)⟩
  · exact ⟨quiet, .inr (.inr ⟨payment, reserved, pays, weaker _ is, rest⟩)⟩

/-- The price and the unit of a challenge, as the client reads them. -/
structure Asks (P : Platform) (challenge : Dict) (price unit : Text) : Prop where
  price : (challenge.get "price_amount").toStr P.isPrintable = .ok price
  unit : (challenge.get "price_units").toStr P.isPrintable = .ok unit

/-- The client pays the challenge with vouchers, if it pays. -/
def ByVoucher (options : ChatOptions) (challenge : Dict) : Prop :=
  options.wallet &&
    accepts ((challenge.get "accepted_schemes").asList.getD []) "pic"

/-- What the client pays for a challenge: the vouchers that are selected for
the price, or a signed statement of it. -/
inductive PaymentFor (P : Platform) (options : ChatOptions)
    (wallet : List HeldVoucher) (challenge : Dict) : Dict → Prop where
  | picked {price unit : Text} {vouchers rest : List HeldVoucher} :
      Asks P challenge price unit → ByVoucher options challenge →
      Wallet.select P.precision wallet price unit = .ok (vouchers, rest) →
      PaymentFor P options wallet challenge (picPayment vouchers)
  | signed {price unit nonce requestId : Text} {payer : KeyPair}
      {now : DateTime} {publicKey : Json} {payment : Dict} :
      Asks P challenge price unit → ¬ ByVoucher options challenge →
      options.x402Keypair = some payer →
      accepts ((challenge.get "accepted_schemes").asList.getD []) "x402" =
        true →
      buildX402Payment P payer price unit nonce now publicKey requestId =
        .ok payment →
      PaymentFor P options wallet challenge payment

theorem vouchersSent_body (payment : Dict) :
    vouchersSent (completionBody options (some payment)) =
      if (payment.get "scheme").isStr "pic" then
        (payment.get "vouchers").asList.getD []
      else [] := by
  have carried : (completionBody options (some payment)).find "sip_payment" =
      some (.obj payment) := rfl
  unfold vouchersSent
  rw [carried]
  rfl

theorem picPayment_paysWith (vouchers : List HeldVoucher) :
    @PaysWith options (picPayment vouchers) (some vouchers) := by
  unfold PaysWith
  rw [vouchersSent_body]
  rfl

theorem buildX402Payment_paysWith {keypair : KeyPair}
    {price unit nonce : Text} {now : DateTime} {publicKey : Json}
    {payment : Dict}
    (built : buildX402Payment P keypair price unit nonce now publicKey
      requestId = .ok payment) : @PaysWith options payment none := by
  obtain ⟨issuedAt, _, built⟩ := bind_eq_ok.mp built
  obtain ⟨signed, _, built⟩ := bind_eq_ok.mp built
  cases built
  unfold PaysWith
  rw [vouchersSent_body]
  rfl

theorem wp_reserveVouchers (lenient : Lenient rule) (price unit : Text) :
    (reserveVouchers P price unit).wp (network rule meets)
      (Prepared options (fun payment => ∃ picked rest,
        Wallet.select P.precision state.wallet price unit =
          .ok (picked, rest) ∧ payment = picPayment picked) state) state := by
  unfold reserveVouchers
  rw [Prog.bind_eq, heldVouchers, Prog.bind_call, wp_call_network]
  refine ⟨lenient _ _ nofun, ?_⟩
  intro held same _
  obtain rfl : held = state.wallet := same
  have looked : Quiet state
      (state.after ⟨.heldVouchers, state.wallet⟩) := Quiet.step rfl state
  rw [Prog.bind_ret]
  cases selected : Wallet.select P.precision state.wallet price unit with
  | error error =>
      dsimp only
      split
      · exact ⟨looked, .inr (.inl ⟨_, rfl, by decide, rfl⟩)⟩
      · exact ⟨looked, .inl ⟨error, rfl⟩⟩
  | ok both =>
      obtain ⟨picked, rest⟩ := both
      dsimp only
      rw [Prog.bind_eq, keepVouchers, Prog.bind_call, wp_call_network]
      refine ⟨lenient _ _ nofun, ?_⟩
      intro answer _ _
      refine ⟨looked.trans (Quiet.step rfl _), .inr (.inr
        ⟨_, _, rfl, ⟨picked, rest, rfl, rfl⟩, picPayment_paysWith picked, ?_⟩)⟩
      intro nodup
      exact List.perm_append_comm.trans (Wallet.select_perm nodup selected)

private theorem wp_signPayment (lenient : Lenient rule) (keypair : KeyPair)
    (price unit : Text) :
    (signPayment P keypair price unit candidate requestId).wp
      (network rule meets)
      (Prepared options (fun payment => ∃ nonce now publicKey,
        buildX402Payment P keypair price unit nonce now publicKey requestId =
          .ok payment) state) state := by
  unfold signPayment
  rw [Prog.bind_eq, tokenUrlsafe, Prog.bind_call, wp_call_network]
  refine ⟨lenient _ _ nofun, ?_⟩
  intro nonce _ _
  rw [Prog.bind_ret, Prog.bind_eq, readClock, Prog.bind_call,
    wp_call_network]
  refine ⟨lenient _ _ nofun, ?_⟩
  intro now _ _
  have drawn : Quiet state (state.after ⟨.tokenUrlsafe, nonce⟩) :=
    Quiet.step rfl state
  have quiet : Quiet state
      ((state.after ⟨.tokenUrlsafe, nonce⟩).after ⟨.now, now⟩) :=
    drawn.trans (Quiet.step rfl _)
  rw [Prog.bind_ret, Prog.bind_eq, Prog.wp_bind, wp_lift]
  cases built : buildX402Payment P keypair price unit nonce now
      (candidate.manifest.get "provider_pubkey") requestId with
  | error error => exact ⟨quiet, .inl ⟨error, rfl⟩⟩
  | ok payment =>
      exact ⟨quiet, .inr (.inr ⟨payment, none, rfl, ⟨_, _, _, built⟩,
        buildX402Payment_paysWith built, conserves_same rfl⟩)⟩

theorem wp_payChallenge (lenient : Lenient rule) (challenge : Dict) :
    (payChallenge P options challenge candidate requestId).wp
      (network rule meets)
      (Prepared options (PaymentFor P options state.wallet challenge) state)
      state := by
  have start := Quiet.refl state
  unfold payChallenge
  rw [Prog.bind_eq, Prog.wp_bind, wp_lift]
  cases isPrice : (challenge.get "price_amount").toStr P.isPrintable with
  | error error => exact ⟨start, .inl ⟨error, rfl⟩⟩
  | ok price =>
      rw [mapError_ok]
      dsimp only [Prog.afterBind]
      rw [Prog.bind_eq, Prog.wp_bind, wp_lift]
      cases isUnit : (challenge.get "price_units").toStr P.isPrintable with
      | error error => exact ⟨start, .inl ⟨error, rfl⟩⟩
      | ok unit =>
          rw [mapError_ok]
          dsimp only [Prog.afterBind]
          have asks : Asks P challenge price unit := ⟨isPrice, isUnit⟩
          split
          · rename_i byVoucher
            have reserves := @wp_reserveVouchers P options state rule meets
              lenient price unit
            refine Prog.wp_mono _ ?_ reserves
            intro outcome after prepared
            refine prepared.weaken ?_
            rintro _ ⟨picked, rest, selects, rfl⟩
            exact .picked asks byVoucher selects
          · rename_i notByVoucher
            split
            · rename_i keypair chosen
              obtain ⟨hasKeypair, accepted⟩ :=
                Option.filter_eq_some_iff.mp chosen
              have signs := @wp_signPayment P options candidate requestId state
                rule meets lenient keypair price unit
              refine Prog.wp_mono _ ?_ signs
              intro outcome after prepared
              refine prepared.weaken ?_
              rintro payment ⟨nonce, now, publicKey, built⟩
              exact .signed asks notByVoucher hasKeypair accepted built
            · exact ⟨start, .inr (.inl ⟨_, rfl, by decide, rfl⟩)⟩

/-- What the client pays for the challenge in a response. -/
def PaymentAsked (P : Platform) (options : ChatOptions)
    (wallet : List HeldVoucher) (response : Response) (payment : Dict) :
    Prop :=
  ∃ body challenge, response.json = .ok body ∧
    challengeOf body = some challenge ∧
      PaymentFor P options wallet challenge payment

theorem safeJson_challenge {response : Response} {body : Json}
    {challenge : Dict} (read : safeJson response = .ok body)
    (challenges : challengeOf body = some challenge) :
    response.json = .ok body := by
  unfold safeJson at read
  split at read
  · rename_i value isJson
    rw [isJson, ← read]
  · split_ifs at read
    cases read
    cases challenges

theorem wp_preparePayment (lenient : Lenient rule) (response : Response) :
    (preparePayment P options response candidate requestId).wp
      (network rule meets)
      (Prepared options (PaymentAsked P options state.wallet response) state)
      state := by
  have start := Quiet.refl state
  unfold preparePayment
  rw [Prog.bind_eq, Prog.wp_bind, wp_lift]
  cases read : safeJson response with
  | error error => exact ⟨start, .inl ⟨error, rfl⟩⟩
  | ok body =>
      rw [mapError_ok]
      dsimp only [Prog.afterBind]
      cases challenges : challengeOf body with
      | none => exact ⟨start, .inr (.inl ⟨_, rfl, by decide, rfl⟩)⟩
      | some challenge =>
          have pays := @wp_payChallenge P options candidate requestId state
            rule meets lenient challenge
          refine Prog.wp_mono _ ?_ pays
          intro outcome after prepared
          exact prepared.weaken fun payment paid =>
            ⟨body, challenge, safeJson_challenge read challenges, challenges,
              paid⟩

/-- The quote of an attempt verified, if one was asked for. -/
def Fetched (P : Platform) (options : ChatOptions) (quote : Option Dict) :
    Prop :=
  if options.getQuote then
    ∃ stated result, quote = some stated ∧
      verifyQuote P stated = .ok result ∧ result.valid = true
  else quote = none

/-- A served result that passed the checks, and what it cost. -/
def ServedFrom (P : Platform) (options : ChatOptions) (client : HttpClient)
    (candidate : ProviderEntry) (state after : NetworkState)
    (result : Served) : Prop :=
  (∃ quote, Fetched P options quote ∧
    Trustworthy P options candidate quote after.trace result) ∧
  ∃ body sent, lastCompletion after.trace = some (client, body) ∧
    vouchersSent body = sent.map (fun held => .obj held.voucher) ∧
      Conserves state after sent

/-- How serving ends: in a failure or a failed call that leave the wallet as
it was, in the error of a helper, or in a served result. -/
inductive Ended (P : Platform) (options : ChatOptions) (client : HttpClient)
    (candidate : ProviderEntry) (state : NetworkState) :
    Except RouterExc Attempt → NetworkState → Prop where
  | failed {label : Text} {after : NetworkState} :
      label ≠ text "ok" → Conserves state after [] →
      Ended P options client candidate state (.ok (.failed label)) after
  | transport (name : Text) {after : NetworkState} :
      Conserves state after [] →
      Ended P options client candidate state (.error (.transport name)) after
  | raised (error : PyExc) (after : NetworkState) :
      Ended P options client candidate state (.error (.raised error)) after
  | served {result : Served} {after : NetworkState} :
      ServedFrom P options client candidate state after result →
      Ended P options client candidate state (.ok (.served result)) after

theorem Ended.from {start : NetworkState}
    {outcome : Except RouterExc Attempt} {after : NetworkState}
    (ended : Ended P options client candidate state outcome after)
    (conserves : Conserves start state []) :
    Ended P options client candidate start outcome after := by
  cases ended with
  | failed notOk wallet => exact .failed notOk (conserves.trans wallet)
  | transport name wallet => exact .transport name (conserves.trans wallet)
  | raised error after => exact .raised error after
  | served servedFrom =>
      obtain ⟨checked, body, sent, lastBody, pays, wallet⟩ := servedFrom
      exact .served
        ⟨checked, body, sent, lastBody, pays, conserves.trans wallet⟩

theorem Judged.ended {quote : Option Dict}
    {reserved : Option (List HeldVoucher)} {middle after : NetworkState}
    {outcome : Except RouterExc Attempt} {body : Dict}
    (judged : Judged P options candidate quote reserved middle outcome after)
    (fetched : Fetched P options quote)
    (lastBody : lastCompletion middle.trace = some (client, body))
    (pays : vouchersSent body =
      (reserved.getD []).map fun held => .obj held.voucher)
    (taken : Conserves state middle (reserved.getD [])) :
    Ended P options client candidate state outcome after := by
  rcases judged with ⟨label, rfl, notOk, _, wallet⟩ |
    ⟨quiet, wallet, ⟨error, rfl⟩ | ⟨result, rfl, trustworthy⟩⟩
  · refine .failed notOk ?_
    intro nodup
    rw [wallet, List.append_nil]
    exact taken nodup
  · exact .raised error after
  · refine .served ⟨⟨quote, fetched, trustworthy⟩, body, _, ?_, pays, ?_⟩
    · rw [quiet.lastCompletion, lastBody]
    · intro nodup
      rw [wallet]
      exact taken nodup

theorem Judged.quiet {quote : Option Dict}
    {reserved : Option (List HeldVoucher)} {after : NetworkState}
    {outcome : Except RouterExc Attempt}
    (judged : Judged P options candidate quote reserved state outcome after) :
    Quiet state after := by
  rcases judged with ⟨_, _, _, quiet, _⟩ | ⟨quiet, _⟩
  · exact quiet
  · exact quiet

/-- Posting a completion: its answer, a failed call, or a request that cannot
be encoded. -/
theorem wp_postCompletion (payment : Option Dict) :
    (postCompletion options client requestId payment).wp (freeNetwork meets)
      (fun outcome after => Contacts client 1 [] state after ∧
        after.wallet = state.wallet ∧
        ((∃ response, outcome = .ok response ∧
          lastCompletion after.trace =
            some (client, completionBody options payment)) ∨
        (∃ name, outcome = .error (.transport name)) ∨
        ∃ error, outcome = .error (.raised error))) state := by
  unfold postCompletion
  apply wp_httpPost
  · trivial
  · intro error _
    have quiet := (Quiet.refl state).contacts client
    exact ⟨quiet.weaken (by omega), rfl, .inr (.inr ⟨error, rfl⟩)⟩
  · intro answer _
    have contacts := Contacts.completion client completionsPath
      (completionHeaders options requestId) (completionBody options payment)
      answer state
    cases answer with
    | error name => exact ⟨contacts, rfl, .inr (.inl ⟨name, rfl⟩)⟩
    | ok response =>
        exact ⟨contacts, rfl, .inl ⟨response, rfl,
          lastCompletion_post _ _ _ _ _⟩⟩

private theorem wp_retryPaid (payment : Dict)
    (reserved : Option (List HeldVoucher)) :
    (retryPaid options client requestId payment reserved).wp
      (freeNetwork meets)
      (fun outcome after => Contacts client 1 [] state after ∧
        ((∃ response, outcome = .ok response ∧ after.wallet = state.wallet ∧
          lastCompletion after.trace =
            some (client, completionBody options (some payment))) ∨
        (∃ name, outcome = .error (.transport name) ∧
          after.wallet = state.wallet ++ reserved.getD []) ∨
        ∃ error, outcome = .error (.raised error))) state := by
  unfold retryPaid
  rw [Prog.wp_tryCatch]
  refine Prog.wp_mono _ ?_ (wp_postCompletion (some payment))
  intro outcome after posted
  obtain ⟨contacts, sameWallet, ⟨response, rfl, lastBody⟩ | ⟨name, rfl⟩ |
    ⟨error, rfl⟩⟩ := posted
  · exact ⟨contacts, .inl ⟨response, rfl, sameWallet, lastBody⟩⟩
  · dsimp only [Prog.afterCatch]
    cases reserved with
    | none =>
        refine ⟨contacts, .inr (.inl ⟨name, rfl, ?_⟩)⟩
        simpa using sameWallet
    | some vouchers =>
        rw [Prog.bind_eq, restore, addVouchers, Prog.bind_call,
          wp_call_network]
        refine ⟨trivial, ?_⟩
        intro answer _ _
        have added : Quiet after (after.after ⟨.addVouchers vouchers, answer⟩) :=
          Quiet.step rfl after
        refine ⟨contacts.trans (added.contacts client),
          .inr (.inl ⟨name, rfl, ?_⟩)⟩
        show after.wallet ++ vouchers = _
        rw [sameWallet]
        rfl
  · exact ⟨contacts, .inr (.inr ⟨error, rfl⟩)⟩

theorem wp_complete (quote : Option Dict)
    (fetched : Fetched P options quote) :
    (complete P options client candidate requestId quote).wp
      (freeNetwork meets)
      (fun outcome after => Contacts client 2 [] state after ∧
        Ended P options client candidate state outcome after) state := by
  unfold complete
  rw [Prog.bind_eq, Prog.wp_bind]
  refine Prog.wp_mono _ ?_ (wp_postCompletion none)
  intro outcome first posted
  obtain ⟨contacts, sameWallet, ⟨response, rfl, lastBody⟩ | ⟨name, rfl⟩ |
    ⟨error, rfl⟩⟩ := posted
  · have unpaid := conserves_same sameWallet
    dsimp only [Prog.afterBind]
    split
    · rw [Prog.bind_eq, Prog.wp_bind]
      refine Prog.wp_mono _ ?_ (wp_preparePayment lenient_free response)
      intro outcome second prepared
      obtain ⟨quiet, prepared⟩ := prepared
      have soFar := contacts.trans (quiet.contacts client)
      rcases prepared with ⟨error, rfl⟩ | ⟨label, rfl, notOk, wallet⟩ |
        ⟨payment, reserved, rfl, _, pays, taken⟩
      · exact ⟨soFar.weaken (by omega), .raised error second⟩
      · refine ⟨soFar.weaken (by omega), .failed notOk ?_⟩
        exact conserves_same (wallet.trans sameWallet)
      · dsimp only [Prog.afterBind]
        rw [Prog.bind_eq, Prog.wp_bind]
        refine Prog.wp_mono _ ?_ (wp_retryPaid payment reserved)
        intro outcome third retried
        have paid := unpaid.trans taken
        obtain ⟨again, ⟨response, rfl, wallet, lastBody⟩ |
          ⟨name, rfl, wallet⟩ | ⟨error, rfl⟩⟩ := retried
        · dsimp only [Prog.afterBind]
          refine Prog.wp_mono _ ?_ (wp_judge lenient_free response reserved quote)
          intro outcome after judged
          refine ⟨(soFar.trans again).trans (judged.quiet.contacts client), ?_⟩
          refine judged.ended fetched lastBody pays ?_
          intro nodup
          rw [wallet]
          exact paid nodup
        · refine ⟨soFar.trans again, .transport name ?_⟩
          intro nodup
          rw [wallet, List.append_nil]
          exact paid nodup
        · exact ⟨soFar.trans again, .raised error third⟩
    · refine Prog.wp_mono _ ?_ (wp_judge lenient_free response none quote)
      intro outcome after judged
      refine ⟨(contacts.trans (judged.quiet.contacts client)).weaken
        (by omega), ?_⟩
      exact judged.ended fetched lastBody rfl unpaid
  · exact ⟨contacts.weaken (by omega),
      .transport name (conserves_same sameWallet)⟩
  · exact ⟨contacts.weaken (by omega), .raised error first⟩

/-- A failed call or the error of a helper. -/
def CallFailed {α : Type} (outcome : Except RouterExc α) : Prop :=
  (∃ name, outcome = .error (.transport name)) ∨
    ∃ error, outcome = .error (.raised error)

theorem wp_healthOk :
    (healthOk client).wp (freeNetwork meets)
      (fun outcome after => Contacts client 0 [client] state after ∧
        after.wallet = state.wallet ∧
          ((∃ healthy, outcome = .ok healthy) ∨ CallFailed outcome))
      state := by
  unfold healthOk
  rw [Prog.bind_eq, httpGet, Prog.bind_call, wp_call_network]
  refine ⟨trivial, ?_⟩
  intro answer _ _
  have contacts := Contacts.get client healthPath answer state
  cases answer with
  | error name => exact ⟨contacts, rfl, .inr (.inl ⟨name, rfl⟩)⟩
  | ok response =>
      show Prog.wp _ (if response.statusCode ≠ 200 then _ else _) _ _
      split
      · exact ⟨contacts, rfl, .inl ⟨_, rfl⟩⟩
      · rw [Prog.bind_eq, Prog.wp_bind, wp_lift]
        cases safeJson response with
        | error error => exact ⟨contacts, rfl, .inr (.inr ⟨error, rfl⟩)⟩
        | ok body => exact ⟨contacts, rfl, .inl ⟨_, rfl⟩⟩

theorem readQuote_some {body : Json} {quote : Dict}
    (read : readQuote P body = .ok (some quote)) :
    body = .obj quote ∧
      ∃ result, verifyQuote P quote = .ok result ∧ result.valid = true := by
  unfold readQuote at read
  cases isDict : body.asDict with
  | none => simp [isDict] at read
  | some fields =>
      rw [isDict] at read
      obtain ⟨result, verified, read⟩ := bind_eq_ok.mp read
      cases valid : result.valid with
      | false => simp [valid] at read
      | true =>
          simp only [valid, if_true, pure_eq_ok, Except.ok.injEq,
            Option.some.injEq] at read
          subst read
          exact ⟨Json.asDict_eq_some.mp isDict, result, verified, valid⟩

theorem wp_fetchQuote :
    (fetchQuote P options client requestId).wp (freeNetwork meets)
      (fun outcome after => Contacts client 0 [] state after ∧
        after.wallet = state.wallet ∧
          (outcome = .ok none ∨
            (∃ quote result, outcome = .ok (some quote) ∧
              verifyQuote P quote = .ok result ∧ result.valid = true) ∨
            CallFailed outcome)) state := by
  unfold fetchQuote
  rw [Prog.bind_eq, Prog.wp_bind]
  apply wp_httpPost
  · trivial
  · intro error _
    exact ⟨(Quiet.refl state).contacts client, rfl,
      .inr (.inr (.inr ⟨error, rfl⟩))⟩
  intro answer _
  have notCompletion : quotePath ≠ completionsPath := by decide
  have contacts := Contacts.otherPost client notCompletion
    (authorization options) (quoteRequest options requestId) answer state
  cases answer with
  | error name => exact ⟨contacts, rfl, .inr (.inr (.inl ⟨name, rfl⟩))⟩
  | ok response =>
      show Prog.wp _ (if response.statusCode ≠ 200 then _ else _) _ _
      split
      · exact ⟨contacts, rfl, .inl rfl⟩
      · rw [Prog.bind_eq, Prog.wp_bind, wp_lift]
        cases safeJson response with
        | error error =>
            exact ⟨contacts, rfl, .inr (.inr (.inr ⟨error, rfl⟩))⟩
        | ok body =>
            show Prog.wp _ (lift _) _ _
            rw [wp_lift]
            cases read : readQuote P body with
            | error error =>
                exact ⟨contacts, rfl, .inr (.inr (.inr ⟨error, rfl⟩))⟩
            | ok quote =>
                cases quote with
                | none => exact ⟨contacts, rfl, .inl rfl⟩
                | some quote =>
                    obtain ⟨_, result, verified, valid⟩ := readQuote_some read
                    exact ⟨contacts, rfl,
                      .inr (.inl ⟨quote, result, rfl, verified, valid⟩)⟩

theorem wp_serve :
    (serve P options client candidate requestId).wp (freeNetwork meets)
      (fun outcome after => Contacts client 2 [client] state after ∧
        Ended P options client candidate state outcome after) state := by
  unfold serve
  rw [Prog.bind_eq, Prog.wp_bind]
  refine Prog.wp_mono _ ?_ wp_healthOk
  intro outcome first checked
  obtain ⟨contacts, sameWallet, ends⟩ := checked
  have untouched := conserves_same sameWallet
  rcases ends with ⟨healthy, rfl⟩ | ⟨name, rfl⟩ | ⟨error, rfl⟩
  · dsimp only [Prog.afterBind]
    cases healthy with
    | false =>
        exact ⟨contacts.weaken (by omega), .failed (by decide) untouched⟩
    | true =>
        simp only [Bool.not_true, Bool.false_eq_true, if_false]
        cases asks : options.getQuote with
        | false =>
            have fetched : Fetched P options none := by
              simp [Fetched, asks]
            simp only [Bool.false_eq_true, if_false]
            refine Prog.wp_mono _ ?_ (wp_complete none fetched)
            intro outcome after completed
            exact ⟨contacts.trans completed.1, completed.2.from untouched⟩
        | true =>
            simp only [if_true]
            rw [Prog.bind_eq, Prog.wp_bind]
            refine Prog.wp_mono _ ?_ wp_fetchQuote
            intro outcome second fetches
            obtain ⟨more, sameSecond, ends⟩ := fetches
            have soFar := contacts.trans more
            have untouched := conserves_same (sameSecond.trans sameWallet)
            rcases ends with rfl | ⟨quote, result, rfl, verified, valid⟩ |
              ⟨name, rfl⟩ | ⟨error, rfl⟩
            · exact ⟨soFar.weaken (by omega), .failed (by decide) untouched⟩
            · have fetched : Fetched P options (some quote) := by
                simp [Fetched, asks, verified, valid]
              dsimp only [Prog.afterBind]
              refine Prog.wp_mono _ ?_ (wp_complete (some quote) fetched)
              intro outcome after completed
              exact ⟨soFar.trans completed.1, completed.2.from untouched⟩
            · exact ⟨soFar.weaken (by omega), .transport name untouched⟩
            · exact ⟨soFar.weaken (by omega), .raised error second⟩
  · exact ⟨contacts.weaken (by omega), .transport name untouched⟩
  · exact ⟨contacts.weaken (by omega), .raised error first⟩

/-- Unless something is raised, an attempt ends in a failure or in a served
result: a failed call is turned into a failure. -/
theorem wp_tryCandidate :
    (tryCandidate P options client candidate requestId).wp
      (freeNetwork meets)
      (fun outcome after => (∃ error, outcome = .error (.raised error)) ∨
        Contacts client 2 [client] state after ∧
          ∃ attempt, outcome = .ok attempt ∧
            Ended P options client candidate state (.ok attempt) after)
      state := by
  unfold tryCandidate
  rw [Prog.bind_eq, Prog.wp_bind]
  apply wp_clientFactory
  · trivial
  intro made _
  cases made with
  | error error => exact .inl ⟨error, rfl⟩
  | ok _ =>
      rw [mapError_ok]
      dsimp only [Prog.afterBind]
      rw [Prog.wp_tryCatch]
      refine Prog.wp_mono _ ?_ wp_serve
      intro outcome after served
      have quiet : Quiet state (state.after ⟨.clientFactory client, .ok ()⟩) :=
        Quiet.step rfl state
      have sameWallet : Conserves state
          (state.after ⟨.clientFactory client, .ok ()⟩) [] :=
        conserves_same rfl
      have contacts := (quiet.contacts client).trans served.1
      rw [Nat.zero_add, List.nil_append] at contacts
      have ended := served.2.from sameWallet
      cases ended with
      | failed notOk wallet =>
          exact .inr ⟨contacts, _, rfl, .failed notOk wallet⟩
      | transport name wallet =>
          refine .inr ⟨contacts, _, rfl, .failed ?_ wallet⟩
          intro same
          have firsts := congrArg List.head? same
          rw [List.head?_append, show (text "transport_error: ").head? =
            some 0x74 by decide, Option.some_or] at firsts
          exact absurd firsts (by decide)
      | raised error after => exact .inl ⟨error, rfl⟩
      | served servedFrom =>
          exact .inr ⟨contacts, _, rfl, .served servedFrom⟩

end SovereignInference.SipRouter
