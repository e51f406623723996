import SovereignInference.SipRouter.QuoteCeiling
import SovereignInference.SipRouter.Returns

/-!
# When failing over is total

Only a failed HTTP call is caught, so a request that cannot be encoded, a URL
that no client can be made for, and an answer that a helper cannot read end the
whole call.  Otherwise the call routes, or records one failed attempt for every
provider it has contacted.
-/

namespace SovereignInference.SipRouter

open Python Effects SipProtocol SipPic

variable {P : Platform} {options : ChatOptions}
  {registry : List ProviderEntry} {client : HttpClient}
  {candidate : ProviderEntry} {requestId : Text} {state : NetworkState}
  {meets : NetworkState → RouterEvent → Prop}

/-- What the caller gives can be sent. -/
structure Sendable (options : ChatOptions) : Prop where
  model : Encodable options.model
  messages : ∀ message ∈ options.messages, message.Clean
  maxTokens : options.maxTokens.natAbs < 10 ^ maxStrDigits
  privacyMode : Ascii options.privacyMode
  token : ∀ token, options.token = some token → Ascii token

/-- Ids can be put into a header, nonces can be encoded, and the clock runs in
UTC. -/
def Ordinary : RouterEvent → Prop
  | ⟨.requestId, id⟩ => Ascii id
  | ⟨.tokenUrlsafe, nonce⟩ => Encodable nonce
  | ⟨.now, now⟩ => now.offset = some 0 ∧ 0 ≤ now.micros ∧
      now.micros < DateTime.calendarEnd
  | _ => True

/-- A body is JSON, or reading it raises a `ValueError`. -/
def JsonOrNot (response : Response) : Prop :=
  ∀ error, response.json = .error error → error.isValueError = true

/-- The response of which the client reads the body. -/
def bodyRead : RouterEvent → Option Response
  | ⟨.get _ _, .ok response⟩ =>
      if response.statusCode = 200 then some response else none
  | ⟨.post _ path _ body, .ok response⟩ =>
      if response.statusCode = 200 ∨ (response.statusCode = 402 ∧
          path = completionsPath ∧ (body.find "sip_payment").isNone) then
        some response
      else none
  | _ => none

/-- The content and the receipt of a served completion. -/
def servedAnswered : RouterEvent → Option (HttpClient × Text × Json)
  | ⟨.post client path _ _, .ok response⟩ =>
      if path = completionsPath then
        (objectOf 200 response).bind fun body =>
          (extractContent (.obj body)).map fun content =>
            (client, content, body.get "sip_receipt")
      else none
  | _ => none

/-- The time of a clock reading. -/
def clockRead : RouterEvent → Option DateTime
  | ⟨.now, now⟩ => some now
  | _ => none

/-- A client can be made, and the bodies that are read are JSON or raise a
`ValueError`. -/
structure Answered (event : RouterEvent) : Prop where
  client : ∀ client error, event ≠ ⟨.clientFactory client, .error error⟩
  body : ∀ response, bodyRead event = some response → JsonOrNot response

/-- What an answer carries can be read by the helper that it goes to. -/
structure Readable (P : Platform) (options : ChatOptions)
    (registry : List ProviderEntry) (state : NetworkState)
    (event : RouterEvent) : Prop extends Answered event where
  quote : ∀ client quote, quoteAnswered event = some (client, quote) →
    HasSignature quote "provider_pubkey" →
      (Json.obj (quote.without signatureField)).Clean
  challenge : ∀ client body challenge, completionOf event =
    some (client, body) → body.find "sip_payment" = none →
      challengeAnswered event = some (client, challenge) →
        ChallengeReadable P options state.wallet challenge
  receipt : ∀ client content receipt candidate,
    servedAnswered event = some (client, content, .obj receipt) →
      options.verifyReceipts = true →
        candidateOf options registry client = some candidate →
          ReceiptReadable P candidate content receipt
  moment : ∀ now client quote content receipt, clockRead event = some now →
    lastQuote state.trace = some (client, quote) →
      state.trace.getLast?.bind servedAnswered =
        some (client, content, receipt) →
          QuoteReadable P quote receipt now

abbrev readableNetwork (P : Platform) (options : ChatOptions)
    (registry : List ProviderEntry) : World RouterSig NetworkState :=
  freeNetwork fun state event =>
    Ordinary event ∧ Readable P options registry state event

/-- No helper has raised. -/
def NoneRaised {α : Type} (outcome : Except RouterExc α) : Prop :=
  ∀ error, outcome ≠ .error (.raised error)

@[simp] theorem noneRaised_ok {α : Type} (value : α) :
    NoneRaised (.ok value : Except RouterExc α) := nofun

@[simp] theorem noneRaised_transport {α : Type} (name : Text) :
    NoneRaised (.error (.transport name) : Except RouterExc α) := by
  intro error equality
  cases equality

theorem NoneRaised.error {α β : Type} {error : RouterExc}
    (noneRaised : NoneRaised (.error error : Except RouterExc α)) :
    NoneRaised (.error error : Except RouterExc β) := by
  intro raised same
  cases same
  exact noneRaised raised rfl

theorem safeJson_isOk {response : Response} (ordinary : JsonOrNot response) :
    ∃ body, safeJson response = .ok body := by
  unfold safeJson
  cases isJson : response.json with
  | ok body => exact ⟨body, rfl⟩
  | error error => exact ⟨.null, by simp [ordinary error isJson]⟩

theorem Sendable.headers (sendable : Sendable options)
    (identified : Ascii requestId) :
    ∀ header ∈ completionHeaders options requestId,
      ∃ s, header.2 = .str s ∧ Ascii s := by
  have authorized : ∀ header ∈ authorization options,
      ∃ s, header.2 = .str s ∧ Ascii s := by
    unfold authorization
    cases isToken : options.token with
    | none => exact List.forall_mem_nil _
    | some token =>
        refine List.forall_mem_singleton.mpr ⟨_, rfl, ?_⟩
        have bearer : Ascii (text "Bearer ") := by decide
        intro c member
        rcases List.mem_append.mp member with inWord | inToken
        · exact bearer c inWord
        · exact sendable.token token isToken c inToken
  exact List.forall_mem_cons.mpr ⟨⟨_, rfl, identified⟩,
    List.forall_mem_cons.mpr ⟨⟨_, rfl, sendable.privacyMode⟩, authorized⟩⟩

/-- A quote can be asked for. -/
theorem Sendable.quoteRequest (sendable : Sendable options)
    (identified : Ascii requestId) :
    ∃ content, encodeRequest (authorization options)
      (quoteRequest options requestId) = .ok content := by
  refine encodeRequest_isOk.mpr ⟨?_, ?_⟩
  · intro header member
    exact sendable.headers identified header
      (List.mem_cons_of_mem _ (List.mem_cons_of_mem _ member))
  · have named := identified.encodable
    have mode := sendable.privacyMode.encodable
    simp [SipRouter.quoteRequest, named, mode, sendable.model,
      sendable.maxTokens]

/-- A completion can be asked for, with a payment that can be written. -/
theorem Sendable.completion (sendable : Sendable options)
    (identified : Ascii requestId) {payment : Option Dict}
    (clean : ∀ fields, payment = some fields → (Json.obj fields).Clean) :
    ∃ content, encodeRequest (completionHeaders options requestId)
      (completionBody options payment) = .ok content := by
  refine encodeRequest_isOk.mpr ⟨sendable.headers identified, ?_⟩
  have unpaid : (Json.obj (completionBody options none)).Clean := by
    simpa [completionBody, sendable.model, sendable.maxTokens] using
      sendable.messages
  cases payment with
  | none => exact unpaid
  | some fields =>
      have written := clean fields rfl
      have paid : completionBody options (some fields) =
          completionBody options none ++
            [(text "sip_payment", Json.obj fields)] := rfl
      rw [Json.clean_obj] at unpaid ⊢
      rw [paid]
      refine List.forall_mem_append.mpr ⟨unpaid, ?_⟩
      exact List.forall_mem_singleton.mpr
        ⟨(by decide : Encodable (text "sip_payment")), written⟩

/-- What the client pays with can be written. -/
theorem PaymentFor.clean {wallet : List HeldVoucher} {challenge payment : Dict}
    (paid : PaymentFor P options wallet challenge payment)
    (valid : ValidWallet P wallet) : (Json.obj payment).Clean := by
  cases paid with
  | picked _ _ selects =>
      have picked := (Wallet.select_sublist selects).subset
      simp only [picPayment, buildPicPayment, Json.clean_obj,
        List.forall_mem_cons]
      refine ⟨⟨by decide, by decide⟩, ⟨by decide, ?_⟩, List.forall_mem_nil _⟩
      rw [Json.clean_arr, List.forall_mem_map]
      intro held member
      exact valid.clean (picked member)
  | signed _ _ _ _ built =>
      obtain ⟨issuedAt, _, built⟩ := bind_eq_ok.mp built
      obtain ⟨signed, isSigned, built⟩ := bind_eq_ok.mp built
      cases built
      simp only [Json.clean_obj, List.forall_mem_cons]
      have clean := signDocument_clean isSigned
      rw [Json.clean_obj] at clean
      exact ⟨⟨by decide, by decide⟩, ⟨by decide, clean⟩,
        List.forall_mem_nil _⟩

theorem FailedOver.noneRaised {reserved : Option (List HeldVoucher)}
    {outcome : Except RouterExc Attempt} {after : NetworkState}
    (failed : FailedOver state reserved outcome after) :
    NoneRaised outcome := by
  obtain ⟨label, rfl, _⟩ := failed
  exact noneRaised_ok _

theorem wp_failover_returns (reserved : Option (List HeldVoucher))
    {detail : Text} (isFailure : detail ≠ text "ok") :
    (paymentFailover reserved detail).wp (freeNetwork meets)
      (fun outcome _ => NoneRaised outcome) state :=
  Prog.wp_mono _ (fun _ _ failed => failed.noneRaised)
    (wp_paymentFailover lenient_free reserved isFailure)

theorem receiptAccepted_ret {receipt : Json} {content : Text}
    (readable : ∀ fields, receipt = .obj fields →
      options.verifyReceipts = true →
        ReceiptReadable P candidate content fields) :
    ∃ accepted, receiptAccepted P options receipt candidate content =
      .ret accepted := by
  unfold receiptAccepted
  cases verifies : options.verifyReceipts with
  | false => exact ⟨true, rfl⟩
  | true =>
      rw [if_pos rfl]
      cases isDict : receipt.asDict with
      | none => exact ⟨false, by simp [receiptTrusted, isDict, lift]⟩
      | some fields =>
          obtain rfl := Json.asDict_eq_some.mp isDict
          obtain ⟨trusted, returns⟩ := (receiptTrusted_isOk fields content).mpr
            (readable fields rfl verifies)
          exact ⟨trusted, by rw [returns, lift]⟩

/-- A quote that verified, and is the last one of the trace. -/
def QuoteAtHand (P : Platform) (client : HttpClient) (quote : Option Dict)
    (trace : List RouterEvent) : Prop :=
  ∀ stated, quote = some stated → lastQuote trace = some (client, stated) ∧
    ∃ result, verifyQuote P stated = .ok result ∧ result.valid = true

theorem wp_quoteAccepted_returns (sound : P.SchemaSound)
    {quote : Option Dict} {content : Text} {receipt : Json}
    (atHand : QuoteAtHand P client quote state.trace)
    (last : state.trace.getLast?.bind servedAnswered =
      some (client, content, receipt)) :
    (quoteAccepted P quote receipt candidate).wp
      (readableNetwork P options registry)
      (fun outcome _ => NoneRaised outcome) state := by
  cases quote with
  | none => exact noneRaised_ok _
  | some quote =>
      obtain ⟨isLast, result, verified, valid⟩ := atHand quote rfl
      unfold quoteAccepted quoteHonored
      dsimp only
      split
      · exact noneRaised_ok _
      · rw [Prog.bind_eq, readClock, Prog.bind_call, wp_call_network]
        refine ⟨trivial, ?_⟩
        intro now _ met
        have readable := met.2.moment now client quote content receipt rfl
          isLast last
        obtain ⟨expired, compares⟩ :=
          (isExpired_isOk quote now).mpr readable.datable
        rw [← quoteIsExpired] at compares
        rw [Prog.bind_ret, compares, lift, Prog.bind_eq, Prog.bind_ret]
        cases expired with
        | true => exact noneRaised_ok _
        | false =>
            simp only [Bool.false_eq_true, if_false]
            rw [wp_lift]
            cases isDict : receipt.asDict with
            | none => simp [withinQuote, isDict]
            | some fields =>
                have isObject := Json.asDict_eq_some.mp isDict
                obtain ⟨within, returns⟩ := withinQuote_isOk sound verified
                  valid (readable.charge compares fields isObject)
                rw [isObject, returns]
                exact noneRaised_ok _

theorem extractContent_dict {body : Json} {content : Text}
    (extracts : extractContent body = some content) :
    ∃ fields : Dict, body = .obj fields := by
  cases body with
  | obj fields => exact ⟨fields, rfl⟩
  | _ => cases extracts

/-- A completion and its answer. -/
def completionEvent (options : ChatOptions) (client : HttpClient)
    (requestId : Text) (payment : Option Dict)
    (answer : Except Text Response) : RouterEvent :=
  ⟨.post client completionsPath (completionHeaders options requestId)
    (completionBody options payment), answer⟩

theorem wp_judge_returns (sound : P.SchemaSound) {response : Response}
    {payment quote : Option Dict} {before : NetworkState}
    (reserved : Option (List HeldVoucher))
    (isCandidate : candidateOf options registry client = some candidate)
    (readable : Readable P options registry before
      (completionEvent options client requestId payment (.ok response)))
    (isLast : state.trace.getLast? = some
      (completionEvent options client requestId payment (.ok response)))
    (atHand : QuoteAtHand P client quote state.trace) :
    (judge P options response reserved quote candidate).wp
      (readableNetwork P options registry)
      (fun outcome _ => NoneRaised outcome) state := by
  unfold judge
  split
  · exact wp_failover_returns reserved (httpDetail_ne_ok _)
  · rename_i status
    have isOk : response.statusCode = 200 := by simpa using status
    obtain ⟨body, read⟩ := safeJson_isOk (readable.body response
      (by simp [bodyRead, completionEvent, isOk]))
    rw [read, lift, Prog.bind_eq, Prog.bind_ret]
    cases extracts : extractContent body with
    | none => exact wp_failover_returns reserved (by decide)
    | some content =>
        dsimp only
        obtain ⟨fields, rfl⟩ := extractContent_dict extracts
        have served : servedAnswered (completionEvent options client requestId
            payment (.ok response)) =
              some (client, content, fields.get "sip_receipt") := by
          simp [servedAnswered, completionEvent, objectOf, isOk,
            safeJson_obj read, Except.toOption, Json.asDict, extracts]
        have readsReceipt : ∀ receipt,
            fields.get "sip_receipt" = .obj receipt →
              options.verifyReceipts = true →
                ReceiptReadable P candidate content receipt := by
          intro receipt isDict verifies
          rw [isDict] at served
          exact readable.receipt client content receipt candidate served
            verifies isCandidate
        obtain ⟨accepted, accepts⟩ := receiptAccepted_ret readsReceipt
        rw [Json.asDict, Option.getD_some, accepts, Prog.bind_eq,
          Prog.bind_ret]
        cases accepted with
        | false => exact wp_failover_returns reserved (by decide)
        | true =>
            simp only [Bool.not_true, Bool.false_eq_true, if_false]
            rw [Prog.bind_eq, Prog.wp_bind]
            have last : state.trace.getLast?.bind servedAnswered =
                some (client, content, fields.get "sip_receipt") := by
              rw [isLast, Option.bind_some, served]
            refine Prog.wp_mono _ ?_
              (wp_quoteAccepted_returns sound atHand last)
            intro outcome after noneRaised
            cases outcome with
            | error error => exact noneRaised.error
            | ok honored =>
                dsimp only [Prog.afterBind]
                cases honored with
                | false => exact wp_failover_returns reserved (by decide)
                | true => exact noneRaised_ok _

theorem ValidWallet.subset {wallet part : List HeldVoucher}
    (valid : ValidWallet P wallet) (subset : part ⊆ wallet) :
    ValidWallet P part := fun held member => valid held (subset member)

theorem ValidWallet.append {wallet others : List HeldVoucher}
    (valid : ValidWallet P wallet) (validOthers : ValidWallet P others) :
    ValidWallet P (wallet ++ others) := by
  intro held member
  rcases List.mem_append.mp member with inWallet | inOthers
  · exact valid held inWallet
  · exact validOthers held inOthers

theorem select_subset {precision : Precision}
    {held picked rest : List HeldVoucher} {price unit : Text}
    (selected : Wallet.select precision held price unit =
      .ok (picked, rest)) : picked ⊆ held ∧ rest ⊆ held := by
  unfold Wallet.select at selected
  obtain ⟨target, _, selected⟩ := bind_eq_ok.mp selected
  obtain ⟨total, _, selected⟩ := bind_eq_ok.mp selected
  obtain ⟨less, _, selected⟩ := bind_eq_ok.mp selected
  split_ifs at selected
  · cases selected
  · obtain ⟨picked', picks, selected⟩ := bind_eq_ok.mp selected
    cases selected
    exact ⟨(Wallet.pick_sublist picks).subset, List.filter_sublist.subset⟩

/-- A preparation has not raised, and every voucher is still valid. -/
def PreparedValid (P : Platform) (outcome : Except RouterExc Preparation)
    (after : NetworkState) : Prop :=
  NoneRaised outcome ∧ ValidWallet P after.wallet ∧
    ∀ payment reserved, outcome = .ok (.pay payment reserved) →
      ValidWallet P (reserved.getD [])

theorem preparedValid_failover (label : Text)
    (valid : ValidWallet P state.wallet) :
    PreparedValid P (.ok (.failover label)) state :=
  ⟨noneRaised_ok _, valid, nofun⟩

theorem wp_reserveVouchers_returns (sound : P.SchemaSound)
    (valid : ValidWallet P state.wallet) {price unit : Text} {total : Decimal}
    (readable : PriceReadable price)
    (adds : Wallet.balance P.precision unit state.wallet .zero = .ok total) :
    (reserveVouchers P price unit).wp (freeNetwork meets)
      (PreparedValid P) state := by
  unfold reserveVouchers
  rw [Prog.bind_eq, heldVouchers, Prog.bind_call, wp_call_network]
  refine ⟨trivial, ?_⟩
  intro held same _
  obtain rfl : held = state.wallet := same
  rw [Prog.bind_ret]
  rcases select_answers sound valid readable adds with ⟨both, selected⟩ |
    insufficient
  · obtain ⟨picked, rest⟩ := both
    obtain ⟨pickedHeld, restHeld⟩ := select_subset selected
    rw [selected]
    dsimp only
    rw [Prog.bind_eq, keepVouchers, Prog.bind_call, wp_call_network]
    refine ⟨trivial, ?_⟩
    intro answer _ _
    refine ⟨noneRaised_ok _, valid.subset restHeld, ?_⟩
    intro payment reserved isPayment
    cases isPayment
    exact valid.subset pickedHeld
  · rw [insufficient]
    exact preparedValid_failover _ valid

private theorem toUtc_isOk {now : DateTime} (isUtc : now.offset = some 0 ∧
    0 ≤ now.micros ∧ now.micros < DateTime.calendarEnd) :
    ∃ utc, now.toUtc P.localOffset = .ok utc := by
  obtain ⟨offset, positive, before⟩ := isUtc
  refine ⟨now.micros, ?_⟩
  simp [DateTime.toUtc, offset, positive, before]

private theorem wp_signPayment_returns (valid : ValidWallet P state.wallet)
    (read : ManifestRead candidate.manifest) (identified : Ascii requestId)
    (keypair : KeyPair) {price unit : Text} (writesPrice : Encodable price)
    (writesUnit : Encodable unit) :
    (signPayment P keypair price unit candidate requestId).wp
      (readableNetwork P options registry) (PreparedValid P) state := by
  unfold signPayment
  rw [Prog.bind_eq, tokenUrlsafe, Prog.bind_call, wp_call_network]
  refine ⟨trivial, ?_⟩
  intro nonce _ metNonce
  rw [Prog.bind_ret, Prog.bind_eq, readClock, Prog.bind_call,
    wp_call_network]
  refine ⟨trivial, ?_⟩
  intro now _ metNow
  obtain ⟨publicKey, found, encodable⟩ := read.pubkey
  have clean : (candidate.manifest.get "provider_pubkey").Clean := by
    rw [get_of_find found]
    exact encodable
  obtain ⟨payment, built⟩ := (@buildX402Payment_isOk P keypair price unit nonce
    (candidate.manifest.get "provider_pubkey") requestId now).mpr
    ⟨toUtc_isOk metNow.1, writesPrice, writesUnit, metNonce.1, clean,
      identified.encodable⟩
  rw [Prog.bind_ret, built, lift, Prog.bind_eq, Prog.bind_ret]
  refine ⟨noneRaised_ok _, valid, ?_⟩
  intro payment reserved isPayment
  cases isPayment
  exact List.forall_mem_nil _

theorem wp_preparePayment_returns (sound : P.SchemaSound)
    (valid : ValidWallet P state.wallet)
    (read : ManifestRead candidate.manifest) (identified : Ascii requestId)
    {response : Response} (ordinary : JsonOrNot response)
    (readable : ∀ body challenge, response.json = .ok body →
      challengeOf body = some challenge →
        ChallengeReadable P options state.wallet challenge) :
    (preparePayment P options response candidate requestId).wp
      (readableNetwork P options registry) (PreparedValid P) state := by
  unfold preparePayment
  obtain ⟨body, reads⟩ := safeJson_isOk ordinary
  rw [reads, lift, Prog.bind_eq, Prog.bind_ret]
  cases challenges : challengeOf body with
  | none => exact preparedValid_failover _ valid
  | some challenge =>
      obtain ⟨price, unit, isPrice, isUnit, pays⟩ := readable body challenge
        (safeJson_challenge reads challenges) challenges
      dsimp only
      unfold payChallenge
      rw [isPrice, isUnit, lift, lift, Prog.bind_eq, Prog.bind_ret,
        Prog.bind_eq, Prog.bind_ret]
      dsimp only at pays ⊢
      split
      · rename_i byVoucher
        rw [if_pos byVoucher] at pays
        obtain ⟨isNumber, total, adds⟩ := pays
        exact wp_reserveVouchers_returns sound valid isNumber adds
      · rename_i notByVoucher
        rw [if_neg notByVoucher] at pays
        split
        · rename_i keypair chosen
          obtain ⟨hasKeypair, accepted⟩ := Option.filter_eq_some_iff.mp chosen
          obtain ⟨writesPrice, writesUnit⟩ :=
            pays (by rw [hasKeypair]; rfl) accepted
          exact wp_signPayment_returns valid read identified keypair
            writesPrice writesUnit
        · exact preparedValid_failover _ valid

/-- Nothing was raised, and every voucher is still valid. -/
def Returned {α : Type} (P : Platform) (outcome : Except RouterExc α)
    (after : NetworkState) : Prop :=
  NoneRaised outcome ∧ ValidWallet P after.wallet

theorem Judged.validWallet {quote : Option Dict}
    {reserved : Option (List HeldVoucher)}
    {outcome : Except RouterExc Attempt} {after : NetworkState}
    (judged : Judged P options candidate quote reserved state outcome after)
    (valid : ValidWallet P state.wallet)
    (taken : ValidWallet P (reserved.getD [])) :
    ValidWallet P after.wallet := by
  rcases judged with ⟨_, _, _, _, wallet⟩ | ⟨_, wallet, _⟩
  · rw [wallet]
    exact valid.append taken
  · rw [wallet]
    exact valid

/-- The answer to a completion is the last event, if the request can be
encoded. -/
theorem wp_postCompletion_answer {payment : Option Dict}
    (encodes : ∃ content, encodeRequest (completionHeaders options requestId)
      (completionBody options payment) = .ok content) :
    (postCompletion options client requestId payment).wp (freeNetwork meets)
      (fun outcome after => ∃ answer,
        outcome = answer.mapError .transport ∧
          after = state.after
            (completionEvent options client requestId payment answer) ∧
          meets state
            (completionEvent options client requestId payment answer))
      state := by
  obtain ⟨content, encodes⟩ := encodes
  unfold postCompletion
  apply wp_httpPost
  · trivial
  · intro error fails
    rw [encodes] at fails
    cases fails
  · intro answer met
    exact ⟨answer, rfl, rfl, met⟩

theorem quoteAtHand_quiet {quote : Option Dict} {after : NetworkState}
    (atHand : QuoteAtHand P client quote state.trace)
    (same : lastQuote after.trace = lastQuote state.trace) :
    QuoteAtHand P client quote after.trace := by
  intro stated isQuote
  rw [same]
  exact atHand stated isQuote

theorem lastQuote_completion (payment : Option Dict)
    (answer : Except Text Response) :
    lastQuote (state.after (completionEvent options client requestId payment
      answer)).trace = lastQuote state.trace := by
  unfold lastQuote NetworkState.after completionEvent
  rw [List.reverse_append, List.reverse_singleton, List.singleton_append,
    List.findSome?_cons]
  cases answer with
  | error name => rfl
  | ok response =>
      simp [quoteAnswered, show completionsPath ≠ quotePath by decide]

theorem wp_judge_valid (sound : P.SchemaSound) {response : Response}
    {payment quote : Option Dict} {before : NetworkState}
    {reserved : Option (List HeldVoucher)}
    (isCandidate : candidateOf options registry client = some candidate)
    (readable : Readable P options registry before
      (completionEvent options client requestId payment (.ok response)))
    (after : state = before.after
      (completionEvent options client requestId payment (.ok response)))
    (atHand : QuoteAtHand P client quote before.trace)
    (valid : ValidWallet P before.wallet)
    (taken : ValidWallet P (reserved.getD [])) :
    (judge P options response reserved quote candidate).wp
      (readableNetwork P options registry) (Returned P) state := by
  subst after
  have judges := Prog.wp_and _
    (wp_judge_returns sound reserved isCandidate readable List.getLast?_concat
      (quoteAtHand_quiet atHand (lastQuote_completion payment _)))
    (wp_judge lenient_free response reserved quote)
  refine Prog.wp_mono _ ?_ judges
  intro outcome after judged
  exact ⟨judged.1, judged.2.validWallet valid taken⟩

private theorem wp_retryPaid_valid (sound : P.SchemaSound) {payment : Dict}
    {quote : Option Dict} {reserved : Option (List HeldVoucher)}
    (sendable : Sendable options) (identified : Ascii requestId)
    (clean : (Json.obj payment).Clean)
    (isCandidate : candidateOf options registry client = some candidate)
    (atHand : QuoteAtHand P client quote state.trace)
    (valid : ValidWallet P state.wallet)
    (taken : ValidWallet P (reserved.getD [])) :
    ((retryPaid options client requestId payment reserved).bind fun response =>
      judge P options response reserved quote candidate).wp
        (readableNetwork P options registry) (Returned P) state := by
  rw [Prog.wp_bind]
  unfold retryPaid
  rw [Prog.wp_tryCatch]
  have encodes := @Sendable.completion options requestId sendable identified
    (some payment) (by
      rintro _ ⟨⟩
      exact clean)
  refine Prog.wp_mono _ ?_ (wp_postCompletion_answer encodes)
  intro outcome after posted
  obtain ⟨answer, rfl, isAfter, met⟩ := posted
  cases answer with
  | ok response =>
      exact wp_judge_valid sound isCandidate met.2 isAfter atHand valid taken
  | error name =>
      rw [mapError_error]
      dsimp only [Prog.afterCatch]
      cases reserved with
      | none =>
          subst isAfter
          exact ⟨noneRaised_transport name, valid⟩
      | some vouchers =>
          rw [Prog.bind_eq, restore, addVouchers, Prog.bind_call,
            wp_call_network]
          refine ⟨trivial, ?_⟩
          intro _ _ _
          subst isAfter
          exact ⟨noneRaised_transport name, valid.append taken⟩

theorem wp_complete_valid (sound : P.SchemaSound) {quote : Option Dict}
    (sendable : Sendable options)
    (read : ManifestRead candidate.manifest) (identified : Ascii requestId)
    (isCandidate : candidateOf options registry client = some candidate)
    (atHand : QuoteAtHand P client quote state.trace)
    (valid : ValidWallet P state.wallet) :
    (complete P options client candidate requestId quote).wp
      (readableNetwork P options registry) (Returned P) state := by
  unfold complete
  rw [Prog.bind_eq, Prog.wp_bind]
  have encodes := @Sendable.completion options requestId sendable identified
    none nofun
  refine Prog.wp_mono _ ?_ (wp_postCompletion_answer encodes)
  intro outcome first posted
  obtain ⟨answer, rfl, isFirst, met⟩ := posted
  cases answer with
  | error name =>
      subst isFirst
      exact ⟨noneRaised_transport name, valid⟩
  | ok response =>
      rw [mapError_ok]
      dsimp only [Prog.afterBind]
      split
      · rename_i asksPayment
        rw [Prog.bind_eq, Prog.wp_bind]
        have readable : ∀ body challenge, response.json = .ok body →
            challengeOf body = some challenge →
              ChallengeReadable P options first.wallet challenge := by
          intro body challenge isJson challenges
          subst isFirst
          exact met.2.challenge client (completionBody options none) challenge
            rfl rfl (challengeAnswered_eq rfl asksPayment isJson challenges)
        have validFirst : ValidWallet P first.wallet := by
          subst isFirst
          exact valid
        have isRead : JsonOrNot response := by
          refine met.2.body response ?_
          have unpaid : (completionBody options none).find "sip_payment" =
            none := rfl
          simp [bodyRead, completionEvent, asksPayment, unpaid]
        have prepares := Prog.wp_and _
          (@wp_preparePayment_returns P options registry candidate requestId
            first sound validFirst read identified response isRead readable)
          (wp_preparePayment lenient_free response)
        refine Prog.wp_mono _ ?_ prepares
        intro outcome second prepared
        obtain ⟨⟨noneRaised, validSecond, taken⟩, quiet, ends⟩ := prepared
        have atHandSecond : QuoteAtHand P client quote second.trace := by
          apply quoteAtHand_quiet atHand
          rw [quiet.lastQuote, isFirst]
          exact lastQuote_completion none _
        cases outcome with
        | error error => exact ⟨noneRaised.error, validSecond⟩
        | ok preparation =>
            cases preparation with
            | failover label => exact ⟨noneRaised_ok _, validSecond⟩
            | pay payment reserved =>
                have clean : (Json.obj payment).Clean := by
                  rcases ends with ⟨_, ⟨⟩⟩ | ⟨_, ⟨⟩, _⟩ | ⟨_, _, ⟨⟩, asked, _⟩
                  obtain ⟨_, _, _, _, paid⟩ := asked
                  exact paid.clean validFirst
                exact wp_retryPaid_valid sound sendable identified clean
                  isCandidate atHandSecond validSecond
                  (taken payment reserved rfl)
      · exact wp_judge_valid sound isCandidate met.2 isFirst atHand valid
          (List.forall_mem_nil _)

theorem wp_healthOk_returns (valid : ValidWallet P state.wallet) :
    (healthOk client).wp (readableNetwork P options registry) (Returned P)
      state := by
  unfold healthOk
  rw [Prog.bind_eq, httpGet, Prog.bind_call, wp_call_network]
  refine ⟨trivial, ?_⟩
  intro answer _ met
  cases answer with
  | error name => exact ⟨noneRaised_transport name, valid⟩
  | ok response =>
      show Prog.wp _ (if response.statusCode ≠ 200 then _ else _) _ _
      split
      · exact ⟨noneRaised_ok _, valid⟩
      · rename_i status
        have isOk : response.statusCode = 200 := by simpa using status
        obtain ⟨body, read⟩ := safeJson_isOk
          (met.2.body response (by simp [bodyRead, isOk]))
        rw [read, lift]
        exact ⟨noneRaised_ok _, valid⟩

private theorem wp_fetchQuote_returns (sendable : Sendable options)
    (identified : Ascii requestId) :
    (fetchQuote P options client requestId).wp
      (readableNetwork P options registry)
      (fun outcome _ => NoneRaised outcome) state := by
  obtain ⟨content, encodes⟩ := sendable.quoteRequest identified
  unfold fetchQuote
  rw [Prog.bind_eq, Prog.wp_bind]
  apply wp_httpPost
  · trivial
  · intro error fails
    rw [encodes] at fails
    cases fails
  intro answer met
  cases answer with
  | error name => exact noneRaised_transport name
  | ok response =>
      show Prog.wp _ (if response.statusCode ≠ 200 then _ else _) _ _
      split
      · exact noneRaised_ok _
      · rename_i status
        have isOk : response.statusCode = 200 := by simpa using status
        obtain ⟨body, read⟩ := safeJson_isOk
          (met.2.body response (by simp [bodyRead, isOk]))
        rw [read, lift, Prog.bind_eq, Prog.bind_ret, wp_lift]
        cases isDict : body.asDict with
        | none => simp [readQuote, isDict]
        | some quote =>
            obtain rfl := Json.asDict_eq_some.mp isDict
            have isQuote : quoteAnswered ⟨.post client quotePath
                (authorization options) (quoteRequest options requestId),
                  .ok response⟩ = some (client, quote) := by
              simp [quoteAnswered, objectOf, isOk, safeJson_obj read,
                Except.toOption, Json.asDict]
            obtain ⟨found, returns⟩ :=
              (readQuote_isOk quote).mpr (met.2.quote client quote isQuote)
            rw [returns]
            exact noneRaised_ok _

private theorem wp_serve_returns (sound : P.SchemaSound)
    (sendable : Sendable options)
    (read : ManifestRead candidate.manifest) (identified : Ascii requestId)
    (isCandidate : candidateOf options registry client = some candidate)
    (valid : ValidWallet P state.wallet) :
    (serve P options client candidate requestId).wp
      (readableNetwork P options registry) (Returned P) state := by
  unfold serve
  rw [Prog.bind_eq, Prog.wp_bind]
  refine Prog.wp_mono _ ?_ (wp_healthOk_returns valid)
  intro outcome first checked
  obtain ⟨noneRaised, validFirst⟩ := checked
  cases outcome with
  | error error => exact ⟨noneRaised.error, validFirst⟩
  | ok healthy =>
      dsimp only [Prog.afterBind]
      cases healthy with
      | false => exact ⟨noneRaised_ok _, validFirst⟩
      | true =>
          simp only [Bool.not_true, Bool.false_eq_true, if_false]
          split
          · rw [Prog.bind_eq, Prog.wp_bind]
            have returns := @wp_fetchQuote_returns P options registry client
              requestId first sendable identified
            have fetches := Prog.wp_and _ returns
              (Prog.wp_and _ wp_fetchQuote (wp_fetchQuote_last trivial))
            refine Prog.wp_mono _ ?_ fetches
            intro outcome second fetched
            obtain ⟨noneRaised, ⟨_, sameWallet, _⟩, isLast⟩ := fetched
            have validSecond : ValidWallet P second.wallet := by
              rw [sameWallet]
              exact validFirst
            cases outcome with
            | error error => exact ⟨noneRaised.error, validSecond⟩
            | ok quote =>
                cases quote with
                | none => exact ⟨noneRaised_ok _, validSecond⟩
                | some quote =>
                    have atHand : QuoteAtHand P client (some quote)
                        second.trace := by
                      intro stated isQuote
                      cases isQuote
                      exact ⟨(isLast quote rfl).1, (isLast quote rfl).2.1⟩
                    exact wp_complete_valid sound sendable read identified
                      isCandidate atHand validSecond
          · exact wp_complete_valid sound sendable read identified isCandidate
              nofun validFirst

private theorem wp_tryCandidate_returns (sound : P.SchemaSound)
    (sendable : Sendable options)
    (read : ManifestRead candidate.manifest) (identified : Ascii requestId)
    (isCandidate : candidateOf options registry client = some candidate)
    (valid : ValidWallet P state.wallet) :
    (tryCandidate P options client candidate requestId).wp
      (readableNetwork P options registry)
      (fun outcome after => (∃ attempt, outcome = .ok attempt) ∧
        ValidWallet P after.wallet) state := by
  unfold tryCandidate
  rw [Prog.bind_eq, Prog.wp_bind]
  apply wp_clientFactory
  · trivial
  intro made met
  cases made with
  | error error => exact absurd rfl (met.2.client client error)
  | ok _ =>
      rw [mapError_ok]
      dsimp only [Prog.afterBind]
      rw [Prog.wp_tryCatch]
      refine Prog.wp_mono _ ?_ (Prog.wp_and _ (wp_serve_returns sound sendable
        read identified isCandidate valid) wp_serve)
      intro outcome after served
      obtain ⟨⟨noneRaised, validAfter⟩, _, ended⟩ := served
      cases ended with
      | failed notOk wallet => exact ⟨⟨_, rfl⟩, validAfter⟩
      | transport name wallet => exact ⟨⟨_, rfl⟩, validAfter⟩
      | raised error after => exact absurd rfl (noneRaised error)
      | served servedFrom => exact ⟨⟨_, rfl⟩, validAfter⟩

private theorem wp_tryCandidates_returns (sound : P.SchemaSound)
    (sendable : Sendable options)
    (identified : Ascii requestId) {tried rest : List ProviderEntry}
    {attempts : List (Text × Text)}
    (isOk : candidatesOf options registry = .ok (tried ++ rest))
    (read : ∀ candidate ∈ rest, ManifestRead candidate.manifest)
    (sameLength : attempts.length = tried.length)
    (valid : ValidWallet P state.wallet) :
    (tryCandidates P options requestId rest attempts).wp
      (readableNetwork P options registry)
      (fun outcome _ => NoneRaised outcome) state := by
  induction rest generalizing tried attempts state with
  | nil =>
      intro error equality
      cases equality
  | cons candidate rest induction =>
      obtain ⟨readThis, readRest⟩ := List.forall_mem_cons.mp read
      have isCandidate : candidateOf options registry
          ⟨attempts.length, candidate.baseUrl⟩ = some candidate := by
        simp [candidateOf, isOk, Except.toOption, sameLength]
      unfold tryCandidates
      rw [Prog.bind_eq, Prog.wp_bind]
      refine Prog.wp_mono _ ?_ (wp_tryCandidate_returns sound sendable readThis
        identified isCandidate valid)
      intro outcome after returned
      obtain ⟨⟨attempt, rfl⟩, validAfter⟩ := returned
      dsimp only [Prog.afterBind]
      cases attempt.result with
      | none =>
          refine @induction after (tried ++ [candidate]) _ ?_ readRest ?_
            validAfter
          · rw [isOk, List.append_assoc, List.singleton_append]
          · rw [List.length_append, List.length_append, sameLength]
            rfl
      | some result =>
          obtain ⟨publicKey, found, _⟩ := readThis.pubkey
          dsimp only
          rw [entryPubkey, found, lift, Prog.bind_eq, Prog.bind_ret]
          exact noneRaised_ok _

theorem wp_chat_returns (sound : P.SchemaSound) (sendable : Sendable options)
    (read : ∀ entry ∈ registry, ManifestRead entry.manifest)
    (rateable : ∀ entry ∈ registry, Lists options.model entry →
      Rateable entry.manifest)
    (valid : ValidWallet P state.wallet) :
    (chat P options registry).wp (readableNetwork P options registry)
      (fun outcome _ => NoneRaised outcome) state := by
  obtain ⟨candidates, isOk, members⟩ := candidatesOf_isOk read rateable
  unfold chat
  rw [isOk, lift, Prog.bind_eq, Prog.bind_ret, Prog.bind_eq, newRequestId,
    Prog.bind_call, wp_call_network]
  refine ⟨trivial, ?_⟩
  intro requestId _ met
  rw [Prog.bind_ret]
  refine @wp_tryCandidates_returns P options registry requestId _ sound
    sendable met.1 [] candidates [] isOk ?_ rfl valid
  intro candidate member
  exact read candidate (members candidate member)

/-- There is one record for each client that has contacted a provider, in the
order of the health checks. -/
structure OneRecordEach (records : List (Text × Text))
    (trace : List RouterEvent) : Prop where
  records : records.map (·.1) =
    (trace.filterMap healthCheckOf).map (·.baseUrl)
  distinct : (trace.filterMap healthCheckOf).Nodup
  contacted : ∀ event ∈ trace, ∀ client, contactOf event = some client →
    client ∈ trace.filterMap healthCheckOf

theorem clientsFrom_nodup (start : Nat) (candidates : List ProviderEntry) :
    (clientsFrom start candidates).Nodup := by
  induction candidates generalizing start with
  | nil => exact List.nodup_nil
  | cons candidate rest induction =>
      refine List.nodup_cons.mpr ⟨?_, induction _⟩
      intro member
      have beyond := le_attempt_of_mem member
      dsimp only at beyond
      omega

private theorem clientsFrom_baseUrl (start : Nat)
    (candidates : List ProviderEntry) :
    (clientsFrom start candidates).map (·.baseUrl) =
      candidates.map (·.baseUrl) := by
  induction candidates generalizing start with
  | nil => rfl
  | cons candidate rest induction =>
      rw [clientsFrom, List.map_cons, induction, List.map_cons]

private theorem Visits.oneRecordEach {candidates : List ProviderEntry}
    {records : List (Text × Text)} {wallet : List HeldVoucher}
    {after : NetworkState}
    (visited : Visits (clientsFrom 0 candidates) ⟨wallet, []⟩ after)
    (failures : FailureRecords candidates records) :
    OneRecordEach records after.trace := by
  obtain ⟨later, same, contacts, _, checks⟩ := visited
  rw [List.nil_append] at same
  subst same
  refine ⟨?_, ?_, ?_⟩
  · rw [checks, clientsFrom_baseUrl, failures.1]
  · rw [checks]
    exact clientsFrom_nodup 0 candidates
  · rw [checks]
    exact contacts

/-- **Failing over is total** if what the caller gives can be sent, clients can
be made, and answers can be read. -/
theorem readable_answers_routed {wallet : List HeldVoucher}
    {final : NetworkState} {outcome : Except RouterExc RouteResult}
    (sound : P.SchemaSound) (sendable : Sendable options)
    (verified : ∀ entry ∈ registry,
      verifyProviderManifest P entry.manifest = .ok true)
    (rateable : ∀ entry ∈ registry, Lists options.model entry →
      Rateable entry.manifest)
    (valid : ValidWallet P wallet)
    (run : Exec (readableNetwork P options registry) ⟨wallet, []⟩
      (chat P options registry) final outcome) :
    (∃ result, outcome = .ok result) ∨
      ∃ records, outcome =
          .error (.noProviderAvailable options.model records) ∧
        OneRecordEach records final.trace := by
  have returns := Prog.wp_sound run (wp_chat_returns sound sendable
    (fun entry member => manifestRead sound (verified entry member)) rateable
    valid)
  rcases Prog.wp_sound run (wp_chat registry) with ⟨error, rfl⟩ |
    ⟨candidates, _, routed⟩
  · exact absurd rfl (returns error)
  · cases routed with
    | exhausted failures visited conserves =>
        exact .inr ⟨_, rfl, visited.oneRecordEach failures⟩
    | raised error after => exact absurd rfl (returns error)
    | served => exact .inl ⟨_, rfl⟩

/-- Whether the rates of a manifest fit floats. -/
def rateCheck (manifest : Dict) : Bool :=
  rateFields.all fun place =>
    match (manifest.get place.1).asDict with
    | none => true
    | some fields =>
        match fields.find place.2 with
        | some (.int rate) => (Float.ofInt rate).isFinite
        | _ => true

theorem rateCheck_sound {manifest : Dict}
    (passes : rateCheck manifest = true) : Rateable manifest := by
  intro place member fields rate isObject isRate
  have fits := List.all_eq_true.mp passes place member
  simpa [isObject, isRate, Json.asDict] using fits

/-- Whether an answer is ordinary. -/
def ordinaryCheck : RouterEvent → Bool
  | ⟨.requestId, id⟩ => decide (Ascii id)
  | ⟨.tokenUrlsafe, nonce⟩ => nonce.all fun c => !isSurrogate c
  | ⟨.now, now⟩ => decide (now.offset = some 0 ∧ 0 ≤ now.micros ∧
      now.micros < DateTime.calendarEnd)
  | _ => true

theorem ordinaryCheck_sound {event : RouterEvent}
    (passes : ordinaryCheck event = true) : Ordinary event := by
  obtain ⟨op, answer⟩ := event
  cases op with
  | requestId =>
      show Ascii answer
      simpa only [ordinaryCheck, decide_eq_true_eq] using passes
  | tokenUrlsafe =>
      show Encodable answer
      simpa [ordinaryCheck, Python.Encodable] using passes
  | now =>
      show answer.offset = some 0 ∧ 0 ≤ answer.micros ∧
        answer.micros < DateTime.calendarEnd
      simpa only [ordinaryCheck, decide_eq_true_eq] using passes
  | _ => trivial

/-- Whether a client was made, and the bodies that are read are JSON. -/
def answeredCheck : RouterEvent → Bool
  | ⟨.clientFactory _, made⟩ => made.toBool
  | event => (bodyRead event).all fun response => response.json.toBool

theorem answeredCheck_sound {event : RouterEvent}
    (passes : answeredCheck event = true) : Answered event := by
  constructor
  · rintro client error rfl
    cases passes
  · intro response isRead error fails
    have isJson : response.json.toBool = true := by
      unfold answeredCheck at passes
      split at passes
      · cases isRead
      · rw [isRead] at passes
        exact passes
    rw [fails] at isJson
    cases isJson

/-- Whether a voucher challenge can be read. -/
def challengeCheck (P : Platform) (options : ChatOptions)
    (wallet : List HeldVoucher) (challenge : Dict) : Bool :=
  match (challenge.get "price_amount").toStr P.isPrintable,
      (challenge.get "price_units").toStr P.isPrintable with
  | .ok price, .ok unit =>
      options.wallet &&
        accepts ((challenge.get "accepted_schemes").asList.getD []) "pic" &&
        (match Decimal.parse price with
          | .ok (.nan _) => false
          | .ok _ => true
          | .error _ => false) &&
        (Wallet.balance P.precision unit wallet .zero).toBool
  | _, _ => false

theorem challengeCheck_sound {wallet : List HeldVoucher} {challenge : Dict}
    (passes : challengeCheck P options wallet challenge = true) :
    ChallengeReadable P options wallet challenge := by
  unfold challengeCheck at passes
  split at passes
  · rename_i price unit isPrice isUnit
    simp only [Bool.and_eq_true] at passes
    obtain ⟨⟨⟨hasWallet, accepted⟩, isNumber⟩, adds⟩ := passes
    refine ⟨price, unit, isPrice, isUnit, ?_⟩
    dsimp only
    rw [if_pos (by rw [hasWallet, accepted]; rfl)]
    constructor
    · cases reads : Decimal.parse price with
      | error error => simp [reads] at isNumber
      | ok value =>
          refine ⟨value, reads, ?_⟩
          intro signaling isNan
          simp [reads, isNan] at isNumber
    · cases sums : Wallet.balance P.precision unit wallet .zero with
      | error error => simp [sums, Except.toBool] at adds
      | ok total => exact ⟨total, rfl⟩
  · cases passes

/-- Whether an answer without quotes and receipts can be read. -/
def readableCheck (P : Platform) (options : ChatOptions)
    (state : NetworkState) (event : RouterEvent) : Bool :=
  ordinaryCheck event && answeredCheck event && !options.verifyReceipts &&
    (quoteAnswered event).isNone && (lastQuote state.trace).isNone &&
    match challengeAnswered event with
    | some (_, challenge) => challengeCheck P options state.wallet challenge
    | none => true

theorem readableCheck_sound (state : NetworkState) (event : RouterEvent)
    (passes : readableCheck P options state event = true) :
    Ordinary event ∧ Readable P options registry state event := by
  simp only [readableCheck, Bool.and_eq_true] at passes
  obtain ⟨⟨⟨⟨⟨ordinary, answered⟩, unverified⟩, noQuote⟩, noLast⟩,
    challenges⟩ := passes
  refine ⟨ordinaryCheck_sound ordinary, answeredCheck_sound answered, ?_, ?_,
    ?_, ?_⟩
  · intro client quote isQuote
    simp [isQuote] at noQuote
  · intro client body challenge _ _ isChallenge
    rw [isChallenge] at challenges
    exact challengeCheck_sound challenges
  · intro client content receipt candidate _ verifies
    simp [verifies] at unverified
  · intro now client quote content receipt _ isLast
    simp [isLast] at noLast

def unsignedManifest : Dict :=
  [("schema", .str "sip-ai.provider_manifest.v1"),
    ("provider_pubkey", .str providerKey), ("node_type", .str "vllm-server"),
    ("models", .arr [.str "m"]), ("runtime_adapters", .arr [.str "vllm"]),
    ("pricing", .obj [("unit", .str "pic"), ("input_per_1m", .int 0),
      ("output_per_1m", .int 1000)]),
    ("max_context", .int 4096), ("logging_policy", .str "metadata_only"),
    ("privacy_modes", .arr [.str "direct"]),
    ("published_at", .str "2026-01-01T00:00:00Z")]

def manifestSignature : Text :=
  "ed25519:SbfbnvpimTkyUo-SB71-7ezn2s7ul2mv7Wvi8LITPZJHBSl140kczIOkholgkESIDSF9qiC7dy26H269MFigBA"

def listedEntry : ProviderEntry :=
  ⟨"http://a", unsignedManifest.set "signature" (.str manifestSignature)⟩

def listedTable : SignatureTable where
  keys := []
  signatures := (providerKey, unsignedManifest, manifestSignature) ::
    voucherTable.signatures

def validWallet : List HeldVoucher :=
  [⟨0, firstVoucher⟩, ⟨1, secondVoucher⟩]

theorem listedEntry_verified : ∀ entry ∈ [listedEntry],
    verifyProviderManifest listedTable.platform entry.manifest =
      .ok true := by
  intro entry member
  obtain rfl := List.mem_singleton.mp member
  decide +kernel

private theorem validWallet_distinct :
    ∀ held ∈ validWallet, (Json.obj held.voucher).DistinctKeys := by
  unfold validWallet
  decide +kernel

theorem validWallet_valid : ValidWallet listedTable.platform validWallet := by
  have verifies : ∀ held ∈ validWallet,
      (verifyVoucher listedTable.platform held.voucher).map (·.valid) =
        .ok true := by
    unfold validWallet
    decide +kernel
  intro held member
  have isValid := verifies held member
  cases verified : verifyVoucher listedTable.platform held.voucher with
  | error error =>
      rw [verified] at isValid
      cases isValid
  | ok result =>
      rw [verified, Except.map, Except.ok.injEq] at isValid
      exact ⟨validWallet_distinct held member, result, rfl, isValid⟩

theorem payingOptions_sendable : Sendable payingOptions where
  model := by decide
  messages := List.forall_mem_nil _
  maxTokens := calc
    (256 : Nat) < 10 ^ 3 := by decide
    _ ≤ 10 ^ maxStrDigits := Nat.pow_le_pow_right (by decide) (by decide)
  privacyMode := by decide
  token := nofun

/-- The provider asks for the price and then serves. -/
def asksThenServes (price : Text) : Script where
  requestId := "r"
  nonce := "n"
  now := ⟨63902822460000000, some 0⟩
  answers := [healthyAnswer,
    challengeAnswer (paymentRequired price "pic" [] ["pic"]),
    servedAnswer "hi" .null]

/-- A price of `abc` ends the call with an `InvalidOperation`. -/
theorem unreadable_price_raises :
    (∀ entry ∈ [listedEntry],
      verifyProviderManifest listedTable.platform entry.manifest =
        .ok true) ∧
    ValidWallet listedTable.platform validWallet ∧ Sendable payingOptions ∧
    ∃ final, Exec
      (freeNetwork fun _ event => Ordinary event ∧ Answered event)
      ⟨validWallet, []⟩
      (chat listedTable.platform payingOptions [listedEntry]) final
      (.error (.raised .invalidOperation)) := by
  refine ⟨listedEntry_verified, validWallet_valid, payingOptions_sendable, ?_⟩
  have passed : (asksThenServes "abc").passes
      (fun _ event => ordinaryCheck event && answeredCheck event)
      (chat listedTable.platform payingOptions [listedEntry])
      (⟨validWallet, []⟩, (asksThenServes "abc").answers) = true := by
    decide +kernel
  have raises : (match ((asksThenServes "abc").run
      (chat listedTable.platform payingOptions [listedEntry])
        validWallet).1 with
      | .error error => decide (error = .raised .invalidOperation)
      | .ok _ => false) = true := by
    decide +kernel
  have run := (asksThenServes "abc").exec_passing
    (fun _ _ passes => (Bool.and_eq_true_iff.mp passes).imp
      ordinaryCheck_sound answeredCheck_sound) _ _ passed
  split at raises
  · rename_i error ran
    obtain rfl := of_decide_eq_true raises
    rw [← ran]
    exact ⟨_, run⟩
  · cases raises

theorem readable_answers_routed_paid : ∃ final outcome,
    Exec (readableNetwork listedTable.platform payingOptions [listedEntry])
      ⟨validWallet, []⟩
      (chat listedTable.platform payingOptions [listedEntry]) final outcome ∧
    ((∃ result, outcome = .ok result) ∨
      ∃ records, outcome =
          .error (.noProviderAvailable payingOptions.model records) ∧
        OneRecordEach records final.trace) := by
  have passed : (asksThenServes "1").passes
      (readableCheck listedTable.platform payingOptions)
      (chat listedTable.platform payingOptions [listedEntry])
      (⟨validWallet, []⟩, (asksThenServes "1").answers) = true := by
    decide +kernel
  have run := (asksThenServes "1").exec_passing
    (@readableCheck_sound listedTable.platform payingOptions [listedEntry])
    _ _ passed
  refine ⟨_, _, run, readable_answers_routed listedTable.platform_schemaSound
    payingOptions_sendable listedEntry_verified ?_ validWallet_valid run⟩
  intro entry member _
  obtain rfl := List.mem_singleton.mp member
  exact rateCheck_sound (by decide +kernel)

end SovereignInference.SipRouter
