import SovereignInference.SipGateway.Acceptance
import SovereignInference.SipGateway.Delivery
import SovereignInference.SipRouter.Guarantees

/-!
# A routing client and its gateways

The client posts a request, the gateway reads it, runs its handler, and the
client judges what it reads of the answer.  So an attempt at an honest gateway
fails for a few reasons only, and what is served is what the runtime of the
gateway returned for the request of the client.
-/

namespace SovereignInference.SipGateway

open Python Python.Json Effects SipProtocol SipPic
open SipRouter (ChatOptions HttpClient ProviderEntry RouteResult
  RouterExc RouterOp RouterProg RouterSig Served completionBody
  completionHeaders completionsPath httpDetail judge orElse paymentFailover
  quotePath tryCandidate)

/-- `str.encode("ascii")`, for the values of headers. -/
def encodeAscii (s : Text) : Except PyExc Bytes :=
  if s.all fun c => c.val < 0x80 then
    .ok (s.map fun c => UInt8.ofNat c.val)
  else .error .unicodeEncodeError

theorem latin1_encodeAscii {s : Text} {bytes : Bytes}
    (encoded : encodeAscii s = .ok bytes) : latin1 bytes = s := by
  unfold encodeAscii at encoded
  split_ifs at encoded with small
  cases encoded
  rw [List.all_eq_true] at small
  unfold latin1
  rw [List.map_map]
  refine (List.map_congr_left fun c member => ?_).trans (List.map_id s)
  have below := of_decide_eq_true (small c member)
  apply Fin.ext
  show (UInt8.ofNat c.val).toNat % 0x110000 = c.val
  rw [UInt8.toNat_ofNat']
  omega

/-- The value of a header as it is sent, if there is one. -/
def sentHeader (headers : Dict) (name : Text) : Except PyExc (Option Bytes) :=
  match headers.find name with
  | some (.str value) => do return some (← encodeAscii value)
  | _ => .ok none

section

variable (codecs : Codecs) (depth : Nat)

/-- `await request.json()`, or nothing if it is malformed. -/
def readBody (sent : Bytes) : Except PyExc (Option Json) :=
  match Http.bodyJson codecs depth sent with
  | .ok body => .ok (some body)
  | .error error => if error.isValueError then .ok none else .error error

/-- A post as it arrives at the gateway. -/
def arriving (headers body : Dict) : Except PyExc Request := do
  let authorization ← sentHeader headers "Authorization"
  let privacyMode ← sentHeader headers "X-SIP-Privacy-Mode"
  let requestId ← sentHeader headers "X-SIP-Request-Id"
  let sent ← dumpBytes false (.obj body)
  return ⟨authorization, privacyMode, requestId, ← readBody codecs depth sent⟩

/-- A response as the client reads it. -/
def asRead (response : Response) : SipRouter.Response :=
  ⟨response.status, Http.bodyJson codecs depth response.body⟩

end

variable {P : Platform} {codecs : Codecs} {depth : Nat}
  {headers body : Dict} {request : Request}

theorem arriving_eq_ok (distinct : (Json.obj body).DistinctKeys)
    (arrives : arriving codecs depth headers body = .ok request) :
    sentHeader headers "X-SIP-Privacy-Mode" = .ok request.privacyMode ∧
      sentHeader headers "X-SIP-Request-Id" = .ok request.requestId ∧
      request.body = some (.obj body) := by
  obtain ⟨authorization, _, arrives⟩ := bind_eq_ok.mp arrives
  obtain ⟨privacyMode, isMode, arrives⟩ := bind_eq_ok.mp arrives
  obtain ⟨requestId, isId, arrives⟩ := bind_eq_ok.mp arrives
  obtain ⟨sent, dumped, arrives⟩ := bind_eq_ok.mp arrives
  obtain ⟨read, isRead, arrives⟩ := bind_eq_ok.mp arrives
  cases arrives
  refine ⟨isMode, isId, ?_⟩
  by_cases shallow : nesting (.obj body) ≤ depth
  · unfold readBody at isRead
    rw [Http.bodyJson_dumpBytes distinct shallow dumped] at isRead
    exact (Except.ok.inj isRead).symm
  · have raises : Http.bodyJson codecs depth sent =
        .error .recursionError := by
      have unread : readWhole depth (.obj body) = .error .recursionError :=
        if_neg shallow
      unfold Http.bodyJson
      rw [loadsBytes_dumpBytes codecs depth distinct dumped, unread]
    unfold readBody at isRead
    rw [raises] at isRead
    cases isRead

/-- The header that the gateway reads is the one that was sent. -/
theorem sentHeader_read {name value : Text} {read : Option Bytes}
    {default : Text} (stated : headers.find name = some (.str value))
    (sent : sentHeader headers name = .ok read) :
    header read default = value := by
  unfold sentHeader at sent
  rw [stated] at sent
  obtain ⟨bytes, encoded, sent⟩ := bind_eq_ok.mp sent
  cases sent
  exact latin1_encodeAscii encoded

/-- The order of a completion request of the client. -/
structure OrderFor (options : ChatOptions) (requestId : Text) (order : Order) :
    Prop where
  model : order.model = options.model
  messages : order.messages = options.messages
  maxTokens : order.maxTokens = options.maxTokens
  privacyMode : order.privacyMode = options.privacyMode
  requestId : order.requestId = requestId

/-- The order of a quote request of the client. -/
structure QuoteOrderFor (options : ChatOptions) (requestId : Text)
    (order : QuoteOrder) : Prop where
  model : order.model = options.model
  maxOutputTokens : order.maxOutputTokens = options.maxTokens
  privacyMode : order.privacyMode = some options.privacyMode
  requestId : order.requestId = requestId

variable {gateway : Gateway} {options : ChatOptions} {requestId : Text}

theorem readOrder_maxTokens {order : Order} {maxTokens : Int}
    (stated : body.find "max_tokens" = some (.int maxTokens))
    (read : readOrder gateway request body = .ok order) :
    order.maxTokens = maxTokens := by
  unfold readOrder at read
  split at read
  · simp only [throw_eq_error, pure_eq_ok] at read
    split at read
    · cases read
    · obtain ⟨limit, isLimit, read⟩ := bind_eq_ok.mp read
      unfold readMaxTokens at isLimit
      rw [stated] at isLimit
      simp only [Option.getD_some] at isLimit
      split_ifs at isLimit
      cases isLimit
      split_ifs at read <;> cases read
      rfl
  · cases read

private theorem completionBody_find {key : Text} (payment : Option Dict)
    (other : key ≠ "sip_payment") :
    (completionBody options payment).find key =
      (completionBody options none).find key := by
  cases payment with
  | none => rfl
  | some payment => exact Dict.find_set_other other

/-- **The order is the request of the client.** -/
theorem orderFor {payment : Option Dict} {order : Order}
    (distinct : (Json.obj (completionBody options payment)).DistinctKeys)
    (arrives : arriving codecs depth (completionHeaders options requestId)
      (completionBody options payment) = .ok request)
    (admitted : admission gateway request = .ok (.ok order)) :
    OrderFor options requestId order := by
  obtain ⟨isMode, isId, isBody⟩ := arriving_eq_ok distinct arrives
  obtain ⟨body, hasBody, read⟩ := admission_read admitted
  rw [isBody] at hasBody
  cases hasBody
  have made := readOrder_ok read
  have find := @completionBody_find options
  have isModel := made.model
  have isMessages := made.messages
  rw [Dict.get, find payment (by decide)] at isModel isMessages
  refine ⟨?_, ?_, ?_, ?_, ?_⟩
  · exact (Option.some.inj isModel).symm
  · exact (Option.some.inj isMessages).symm
  · exact readOrder_maxTokens (find payment (by decide)) read
  · rw [made.privacyMode]
    exact sentHeader_read rfl isMode
  · rw [made.requestId]
    exact sentHeader_read rfl isId

theorem quoteRequest_distinct :
    (Json.obj (SipRouter.quoteRequest options requestId)).DistinctKeys :=
  distinct_obj ["request_id", "model", "max_output_tokens", "privacy_mode"]
    rfl (by decide)
    (by simp [SipRouter.quoteRequest, DistinctKeys.str, DistinctKeys.int])

private theorem quoteAdmission_read {order : QuoteOrder}
    (admitted : quoteAdmission gateway request = .ok (.ok order)) :
    ∃ body, request.body = some (.obj body) ∧
      readQuoteOrder gateway body = .ok order := by
  unfold quoteAdmission at admitted
  obtain ⟨authorized, _, admitted⟩ := bind_eq_ok.mp admitted
  cases authorized with
  | false => cases admitted
  | true =>
      cases hasBody : request.body with
      | none => simp [hasBody] at admitted
      | some body =>
          cases isDict : body.asDict with
          | none => simp [hasBody, isDict] at admitted
          | some fields =>
              simp only [hasBody, isDict, Bool.not_true, Bool.false_eq_true,
                if_false, pure_eq_ok, Except.ok.injEq] at admitted
              refine ⟨fields, ?_, admitted⟩
              rw [Json.asDict_eq_some.mp isDict]

theorem quoteOrderFor {order : QuoteOrder}
    (arrives : arriving codecs depth (SipRouter.authorization options)
      (SipRouter.quoteRequest options requestId) = .ok request)
    (admitted : quoteAdmission gateway request = .ok (.ok order)) :
    QuoteOrderFor options requestId order := by
  obtain ⟨_, _, isBody⟩ := arriving_eq_ok quoteRequest_distinct arrives
  obtain ⟨body, hasBody, read⟩ := quoteAdmission_read admitted
  rw [isBody] at hasBody
  cases hasBody
  unfold readQuoteOrder at read
  dsimp only [SipRouter.quoteRequest] at read
  split at read
  · rename_i id model limit isId isModel isLimit
    cases isId
    cases isModel
    cases isLimit
    split_ifs at read
    cases read
    exact ⟨rfl, rfl, rfl, rfl⟩
  · cases read

/-- A gateway in its surroundings: a clock, a limiter, a runtime, a store of
spent credits and a ledger, in any state. -/
structure Node where
  gateway : Gateway
  State : Type
  world : World GatewaySig State

section

variable (P : Platform) (codecs : Codecs) (depth : Nat)

/-- What a node may answer to a post: what the handler returns in some run, or
status 500. -/
inductive Node.Answers (node : Node) (path : Text) (headers body : Dict) :
    SipRouter.Response → Prop where
  | completion {request : Request} {before after : node.State}
      {response : Response} : path = completionsPath →
      arriving codecs depth headers body = .ok request →
      Exec node.world before (chatCompletions P node.gateway request) after
        (.ok response) →
      Answers node path headers body (asRead codecs depth response)
  | quote {request : Request} {before after : node.State}
      {response : Response} : path = quotePath →
      arriving codecs depth headers body = .ok request →
      Exec node.world before
        (quote (priceAmount node.gateway) P node.gateway request) after
        (.ok response) →
      Answers node path headers body (asRead codecs depth response)
  | failed (json : Except PyExc Json) : Answers node path headers body ⟨500, json⟩

/-- Every post is answered by the node at its address.  What is posted is a
Python dict, so no key is in it twice. -/
def AnsweredBy (nodes : Text → Node) (op : RouterOp) (answer : RouterSig.Ans op) :
    Prop :=
  match op, answer with
  | .post client path headers body, .ok response =>
      (Json.obj body).DistinctKeys ∧
        (nodes client.baseUrl).Answers P codecs depth path headers body response
  | _, _ => True

variable (node : Node) (options : ChatOptions) (requestId : Text)

/-- A completion that the node made for the request of the client: its order,
what the runtime returned, its price and its receipt. -/
structure CompletionFor (order : Order) (result : ChatResult) (price : Text)
    (receipt : Dict) : Prop where
  ordered : OrderFor options requestId order
  reported : Reported node.world order result
  charged : ∃ required,
    PricedBy (priceAmount node.gateway) node.gateway order required ∧
      receiptPrice (priceAmount node.gateway) required result = .ok price
  made : ReceiptMade P node.gateway order result price receipt

/-- A quote that the node made for the request of the client. -/
structure QuoteFor (order : QuoteOrder) (maxPrice : Text) (quote : Dict) :
    Prop where
  ordered : QuoteOrderFor options requestId order
  priced : priceAmount node.gateway node.gateway.maxInputChars
    options.maxTokens = .ok maxPrice
  made : QuoteMade P node.gateway order maxPrice quote

/-- The receipt is in the units of the quote and not above its price. -/
structure WithinPrice (quote receipt : Dict) : Prop where
  sameUnits : (receipt.get "price_units").pyEq (quote.get "price_units") = true
  withinPrice : ∃ charged committed,
    SipRouter.priceOf P (receipt.get "price_amount") = .ok charged ∧
      SipRouter.priceOf P (quote.get "max_price") = .ok committed ∧
        charged.le committed = .ok true

/-- A failover after vouchers were taken says so. -/
def Labelled (detail label : Text) : Prop :=
  label = detail ∨ label = "payment_rejected"

/-- How an attempt at a node ends. -/
inductive AttemptEnds : SipRouter.Attempt → Prop where
  | early {label : Text} : SipRouter.FailsEarly label →
      AttemptEnds (.failed label)
  | unquoted {response : SipRouter.Response} :
      node.Answers P codecs depth quotePath (SipRouter.authorization options)
        (SipRouter.quoteRequest options requestId) response →
      response.statusCode ≠ 200 → AttemptEnds (.failed "quote_invalid")
  | unquotable {order : QuoteOrder} {maxPrice : Text} {quote : Dict} :
      QuoteFor P node options requestId order maxPrice quote →
      ¬ Quotable node.gateway order maxPrice →
      AttemptEnds (.failed "quote_invalid")
  | refused {payment : Option Dict} {response : SipRouter.Response}
      {label : Text} :
      node.Answers P codecs depth completionsPath
        (completionHeaders options requestId) (completionBody options payment)
        response →
      response.statusCode ≠ 200 →
      Labelled (httpDetail response.statusCode) label →
      AttemptEnds (.failed label)
  | unreceiptable {order : Order} {result : ChatResult} {price : Text}
      {receipt : Dict} {label : Text} :
      CompletionFor P node options requestId order result price receipt →
      options.verifyReceipts = true →
      ¬ Receiptable node.gateway order result price →
      Labelled "receipt_unverified" label → AttemptEnds (.failed label)
  | violated {order : Order} {result : ChatResult} {price : Text}
      {receipt stated : Dict} {label : Text} :
      CompletionFor P node options requestId order result price receipt →
      (∃ order maxPrice,
        QuoteFor P node options requestId order maxPrice stated) →
      Labelled "quote_violated" label → AttemptEnds (.failed label)
  | served {order : Order} {result : ChatResult} {price : Text}
      {receipt : Dict} {quote : Option Dict} :
      CompletionFor P node options requestId order result price receipt →
      (options.verifyReceipts = true →
        Receiptable node.gateway order result price) →
      (options.getQuote = true → quote.isSome = true) →
      (∀ stated, quote = some stated → WithinPrice P stated receipt ∧
        ∃ order maxPrice,
          QuoteFor P node options requestId order maxPrice stated) →
      AttemptEnds (.served ⟨result.content, .obj receipt, quote⟩)

end

/-- A world in which the node at an address answers what is posted there. -/
def Hosts {S : Type} (P : Platform) (codecs : Codecs) (depth : Nat)
    (nodes : Text → Node) (world : World RouterSig S) : Prop :=
  ∀ state op answer after, world.step state op answer after →
    AnsweredBy P codecs depth nodes op answer

section

variable (P : Platform) (codecs : Codecs) (depth : Nat) (gateway : Gateway)
  (host : Host)

/-- The gateway alone with its host. -/
def hostedNode : Node := ⟨gateway, HostState, host.handler.world⟩

/-- The handler of a path. -/
def routeOf (path : Text) (request : Request) :
    Option (Prog GatewaySig PyExc Response) :=
  if path = completionsPath then some (chatCompletions P gateway request)
  else if path = quotePath then
    some (quote (priceAmount gateway) P gateway request)
  else none

def postTo (path : Text) (headers body : Dict) (state : HostState) :
    Except Text SipRouter.Response × HostState :=
  match arriving codecs depth headers body with
  | .error _ => (.error "UnicodeEncodeError", state)
  | .ok request =>
      match routeOf P gateway path request with
      | none => (.error "ConnectError", state)
      | some program =>
          let (outcome, after) := host.handler.run program state
          (.ok (match outcome with
            | .ok response => asRead codecs depth response
            | .error _ => ⟨500, .error .valueError⟩), after)

/-- A client whose every address is the one gateway, which is healthy. -/
def wired : Handler RouterSig HostState where
  respond := fun state op =>
    match op with
    | .requestId => ("r", state)
    | .now => (host.clock 0, state)
    | .tokenUrlsafe => ("n", state)
    | .clientFactory _ => (.ok (), state)
    | .get _ _ => (.ok ⟨200, .ok (.obj [("status", .str "ok")])⟩, state)
    | .post _ path headers body =>
        if (Json.obj body).DistinctKeys then
          postTo P codecs depth gateway host path headers body state
        else (.error "TypeError", state)
    | .heldVouchers => ([], state)
    | .keepVouchers _ => ((), state)
    | .addVouchers _ => ((), state)

theorem wired_hosts : Hosts P codecs depth (fun _ => hostedNode gateway host)
    (wired P codecs depth gateway host).world := by
  intro state op answer after stepped
  cases op with
  | post client path headers body =>
      simp only [Handler.world, wired] at stepped
      split_ifs at stepped with distinct
      · unfold postTo at stepped
        split at stepped
        · cases stepped
          trivial
        · rename_i request arrives
          split at stepped
          · cases stepped
            trivial
          · rename_i program routed
            have run := host.handler.exec_run program state
            cases stepped
            refine ⟨distinct, ?_⟩
            generalize host.handler.run program state = ran at run ⊢
            obtain ⟨outcome, final⟩ := ran
            cases outcome with
            | error error => exact .failed _
            | ok response =>
                unfold routeOf at routed
                split_ifs at routed with completes quotes
                · cases routed
                  exact .completion completes arrives run
                · cases routed
                  exact .quote quotes arrives run
      · cases stepped
        trivial
  | _ => trivial

end

/-- The signature of the table, or 64 zero bytes. -/
def paddedSignature (table : SignatureTable) (privateKey message : Bytes) :
    Bytes :=
  let raw := table.sign privateKey message
  if raw.length = 64 then raw else List.replicate 64 0

/-- The platform of a table, where the key pair signs everything. -/
def signingPlatform (table : SignatureTable) (keypair : KeyPair) : Platform :=
  { table.platform with
    sign := paddedSignature table
    verifySignature := fun publicKey message signature =>
      publicKey = table.publicKey keypair.privateKey &&
        signature = paddedSignature table keypair.privateKey message }

theorem signingPlatform_signs {table : SignatureTable} {keypair : KeyPair}
    (full : (table.publicKey keypair.privateKey).length = 32) :
    (signingPlatform table keypair).SignsFor keypair where
  keyLength := full
  signatureLength := by
    intro message
    show (paddedSignature table keypair.privateKey message).length = 64
    unfold paddedSignature
    dsimp only
    split_ifs with whole
    · exact whole
    · exact List.length_replicate
  verifies := by
    intro message
    exact (Bool.and_eq_true _ _).mpr
      ⟨decide_eq_true rfl, decide_eq_true rfl⟩

theorem signingPlatform_sound (table : SignatureTable) (keypair : KeyPair) :
    (signingPlatform table keypair).SchemaSound :=
  table.platform_schemaSound

variable {node : Node} {nodes : Text → Node} {candidate : ProviderEntry}
  {client : HttpClient} {good : (op : RouterOp) → RouterSig.Ans op → Prop}

theorem yields_paymentFailover (reserved : Option (List HeldVoucher))
    (detail : Text) :
    (paymentFailover reserved detail).Yields good fun attempt =>
      ∃ label, Labelled detail label ∧ attempt = .failed label := by
  unfold paymentFailover
  cases reserved with
  | none => exact ⟨detail, .inl rfl, rfl⟩
  | some vouchers => exact Prog.yields_bind fun _ => ⟨_, .inr rfl, rfl⟩

theorem completion_distinct {order : Order} {result : ChatResult}
    {price : Text} {receipt : Dict}
    (made : ReceiptMade P gateway order result price receipt) :
    (Json.obj (completion order result receipt)).DistinctKeys ∧
      nesting (.obj (completion order result receipt)) = 4 := by
  have message : (Json.obj [("role", .str "assistant"),
      ("content", .str result.content)]).DistinctKeys :=
    distinct_obj ["role", "content"] rfl (by decide) (by simp [DistinctKeys.str])
  have choice : (Json.obj [("index", .int 0), ("message", .obj [
      ("role", .str "assistant"), ("content", .str result.content)]),
      ("finish_reason", .str "stop")]).DistinctKeys :=
    distinct_obj ["index", "message", "finish_reason"] rfl (by decide)
      (by simp [DistinctKeys.str, DistinctKeys.int, message])
  have usage : (Json.obj [("prompt_tokens", .int result.inputTokens),
      ("completion_tokens", .int result.outputTokens),
      ("total_tokens",
        .int (result.inputTokens + result.outputTokens))]).DistinctKeys :=
    distinct_obj ["prompt_tokens", "completion_tokens", "total_tokens"] rfl
      (by decide) (by simp [DistinctKeys.int])
  refine ⟨distinct_obj ["id", "object", "model", "choices", "usage",
    "sip_receipt"] rfl (by decide) (by
      simp [completion, DistinctKeys.str, usage, made.distinct,
        DistinctKeys.arr _ (List.forall_mem_singleton.mpr choice)]), ?_⟩
  have flat := made.flat
  simp only [completion, nesting, nestingFields, nestingField,
    nestingItems] at flat ⊢
  omega

theorem judge_completion {response : SipRouter.Response} {order : Order}
    {result : ChatResult} {receipt : Dict} (status : response.statusCode = 200)
    (read : response.json = .ok (.obj (completion order result receipt)))
    (reserved : Option (List HeldVoucher)) (quote : Option Dict) :
    judge P options response reserved quote candidate =
      (SipRouter.receiptAccepted P options (.obj receipt) candidate
        result.content).bind fun trusted =>
          if !trusted then paymentFailover reserved "receipt_unverified"
          else (SipRouter.quoteAccepted P quote (.obj receipt) candidate).bind
            fun honored =>
              if !honored then paymentFailover reserved "quote_violated"
              else .ret (.served
                ⟨result.content, orElse (.obj receipt) (.obj []), quote⟩) := by
  unfold judge SipRouter.safeJson
  rw [if_neg (by simp [status]), read]
  rfl

/-- What the client reads of a completion with status 200. -/
theorem completion_asRead {before after : node.State} {response : Response}
    {payment : Option Dict} (signs : P.SignsFor node.gateway.keypair)
    (deep : 4 ≤ depth)
    (distinct : (Json.obj (completionBody options payment)).DistinctKeys)
    (arrives : arriving codecs depth (completionHeaders options requestId)
      (completionBody options payment) = .ok request)
    (run : Exec node.world before (chatCompletions P node.gateway request)
      after (.ok response)) (isAnswer : response.status = 200) :
    ∃ order result price receipt,
      CompletionFor P node options requestId order result price receipt ∧
        (asRead codecs depth response).json =
          .ok (.obj (completion order result receipt)) := by
  have rendered : Rendered response :=
    (@chatCompletions_rendered P node.gateway (priceAmount node.gateway)
      request).exec (fun _ _ _ _ _ => trivial) run
  unfold chatCompletions at run
  obtain ⟨order, result, required, price, receipt, started, completed, admitted,
    reported, priced, isPrice, signed, content⟩ := completion_made run isAnswer
  have made := receiptMade signs signed
  obtain ⟨distinct', nested⟩ := completion_distinct made
  refine ⟨order, result, price, receipt, ⟨orderFor distinct arrives admitted,
    reported, ⟨required, priced, isPrice⟩, made⟩, ?_⟩
  rw [Rendered, content] at rendered
  exact Http.bodyJson_dumpBytes distinct' (by rw [nested]; exact deep) rendered

theorem quote_asRead {before after : node.State} {response : Response}
    (signs : P.SignsFor node.gateway.keypair) (deep : 4 ≤ depth)
    (arrives : arriving codecs depth (SipRouter.authorization options)
      (SipRouter.quoteRequest options requestId) = .ok request)
    (run : Exec node.world before
      (quote (priceAmount node.gateway) P node.gateway request) after
      (.ok response)) (isQuote : response.status = 200) :
    ∃ order maxPrice quote,
      QuoteFor P node options requestId order maxPrice quote ∧
        (asRead codecs depth response).json = .ok (.obj quote) := by
  have rendered : Rendered response :=
    (@quote_rendered P node.gateway (priceAmount node.gateway) request).exec
      (fun _ _ _ _ _ => trivial) run
  obtain ⟨order, issued, admitted, signed⟩ := quote_made run isQuote
  obtain ⟨maxPrice, priced, made⟩ := quoteMade signs signed
  have ordered := quoteOrderFor arrives admitted
  rw [ordered.maxOutputTokens] at priced
  have flat := made.flat
  exact ⟨order, maxPrice, response.content, ⟨ordered, priced, made⟩,
    Http.bodyJson_dumpBytes made.distinct (by omega) rendered⟩

/-- A quote is honored only by a receipt within its price. -/
theorem yields_quoteAccepted (quote : Option Dict) (receipt : Dict) :
    (SipRouter.quoteAccepted P quote (.obj receipt) candidate).Yields good
      fun honored =>
        if honored then ∀ stated, quote = some stated →
          WithinPrice P stated receipt
        else ∃ stated, quote = some stated := by
  cases quote with
  | none => exact nofun
  | some stated =>
      have refuses : ∃ other, some stated = some other := ⟨stated, rfl⟩
      unfold SipRouter.quoteAccepted SipRouter.quoteHonored
      dsimp only
      split_ifs
      · exact refuses
      · refine Prog.yields_bind fun now => Prog.yields_bind fun expired => ?_
        split_ifs
        · exact refuses
        · refine SipRouter.yields_lift.mpr fun within isWithin => ?_
          cases within with
          | false => exact refuses
          | true =>
              obtain ⟨sameUnits, withinPrice⟩ :=
                SipRouter.withinQuote_true isWithin
              rintro _ ⟨⟩
              exact ⟨sameUnits, withinPrice⟩

section

variable (sound : P.SchemaSound) (signs : P.SignsFor node.gateway.keypair)
  (deep : 4 ≤ depth)

include sound signs deep

theorem yields_judge {response : SipRouter.Response} {payment : Option Dict}
    {quote : Option Dict} (reserved : Option (List HeldVoucher))
    (listed : candidate.manifest.get "provider_pubkey" =
      .str (publicKeyStr P node.gateway))
    (asked : options.getQuote = true → quote.isSome = true)
    (quoted : ∀ stated, quote = some stated → ∃ order maxPrice,
      QuoteFor P node options requestId order maxPrice stated)
    (distinct : (Json.obj (completionBody options payment)).DistinctKeys)
    (answers : node.Answers P codecs depth completionsPath
      (completionHeaders options requestId) (completionBody options payment)
      response) :
    (judge P options response reserved quote candidate).Yields good
      (AttemptEnds P codecs depth node options requestId) := by
  have refuses : response.statusCode ≠ 200 →
      (judge P options response reserved quote candidate).Yields good
        (AttemptEnds P codecs depth node options requestId) := by
    intro other
    unfold judge
    rw [if_pos other]
    refine (yields_paymentFailover reserved _).mono ?_
    rintro _ ⟨label, labelled, rfl⟩
    exact .refused answers other labelled
  cases answers with
  | failed json =>
      apply refuses
      show (500 : Nat) ≠ 200
      decide
  | quote isPath _ _ => exact absurd isPath (by decide)
  | @completion _ _ _ response _ arrives run =>
      by_cases isAnswer : response.status = 200
      · obtain ⟨order, result, price, receipt, completes, read⟩ :=
          completion_asRead signs deep distinct arrives run isAnswer
        obtain ⟨trusted, checked, legal⟩ :=
          completes.made.trusted sound signs listed
        rw [judge_completion isAnswer read]
        have accepts : (SipRouter.receiptAccepted P options (.obj receipt)
            candidate result.content).Yields good fun trusted =>
              if trusted then options.verifyReceipts = true →
                Receiptable node.gateway order result price
              else options.verifyReceipts = true ∧
                ¬ Receiptable node.gateway order result price := by
          unfold SipRouter.receiptAccepted
          split_ifs with verifies
          · rw [checked]
            refine SipRouter.yields_lift.mpr ?_
            rintro _ ⟨⟩
            cases trusted with
            | true => exact fun _ => legal.mp rfl
            | false => exact ⟨verifies, fun able => nomatch legal.mpr able⟩
          · exact fun isTrue => absurd isTrue verifies
        refine accepts.bind fun accepted verdict => ?_
        cases accepted with
        | false =>
            refine (yields_paymentFailover reserved _).mono ?_
            rintro _ ⟨label, labelled, rfl⟩
            exact .unreceiptable completes verdict.1 verdict.2 labelled
        | true =>
            refine (yields_quoteAccepted quote receipt).bind
              fun honored judged => ?_
            cases honored with
            | false =>
                obtain ⟨stated, isQuote⟩ := judged
                refine (yields_paymentFailover reserved _).mono ?_
                rintro _ ⟨label, labelled, rfl⟩
                exact .violated completes (quoted stated isQuote) labelled
            | true =>
                have nonempty : orElse (.obj receipt) (.obj []) =
                    .obj receipt := by
                  have named := completes.made.named
                  cases receipt with
                  | nil => cases named
                  | cons field rest => rfl
                show AttemptEnds P codecs depth node options requestId _
                rw [nonempty]
                exact .served completes verdict asked fun stated isQuote =>
                  ⟨judged stated isQuote, quoted stated isQuote⟩
      · exact refuses isAnswer

private theorem yields_fetchQuote (here : nodes client.baseUrl = node) :
    (SipRouter.fetchQuote P options client requestId).Yields
      (AnsweredBy P codecs depth nodes) fun
        | none => AttemptEnds P codecs depth node options requestId
            (.failed "quote_invalid")
        | some quote => ∃ order maxPrice,
            QuoteFor P node options requestId order maxPrice quote := by
  subst here
  unfold SipRouter.fetchQuote
  refine Prog.Yields.bind (SipRouter.yields_httpPost fun response answers =>
    answers.2) ?_
  intro response answers
  split_ifs with other
  · exact .unquoted answers other
  · rw [not_not] at other
    cases answers with
    | completion isPath _ _ => exact absurd isPath (by decide)
    | failed json => exact absurd other (by decide : ¬ (500 : Nat) = 200)
    | quote _ arrives run =>
        obtain ⟨order, maxPrice, quote, quotes, read⟩ :=
          quote_asRead signs deep arrives run other
        obtain ⟨accepted, rejected⟩ := quotes.made.read sound signs
        unfold SipRouter.safeJson
        rw [read]
        refine SipRouter.yields_lift.mpr fun found isFound => ?_
        by_cases able : Quotable (nodes client.baseUrl).gateway order maxPrice
        · rw [accepted able] at isFound
          cases isFound
          exact ⟨order, maxPrice, quotes⟩
        · rw [rejected able] at isFound
          cases isFound
          exact .unquotable quotes able

theorem yields_attempt (here : nodes client.baseUrl = node)
    (listed : candidate.manifest.get "provider_pubkey" =
      .str (publicKeyStr P node.gateway)) :
    (tryCandidate P options client candidate requestId).Yields
      (AnsweredBy P codecs depth nodes)
      (AttemptEnds P codecs depth node options requestId) := by
  refine SipRouter.yields_tryCandidate (fun _ => .early)
    (fun _ => yields_fetchQuote sound signs deep here) ?_
  rintro response reserved quote asked quoted ⟨payment, distinct, answers⟩
  rw [here] at answers
  exact yields_judge sound signs deep reserved listed asked quoted distinct
    answers

omit sound signs deep in
/-- What an attempt served is a completion of the node. -/
theorem AttemptEnds.completion {attempt : SipRouter.Attempt} {served : Served}
    (ends : AttemptEnds P codecs depth node options requestId attempt)
    (serves : attempt.result = some served) :
    ∃ order reported price receipt,
      CompletionFor P node options requestId order reported price receipt ∧
        served.content = reported.content ∧ served.receipt = .obj receipt := by
  cases ends with
  | served completes _ _ _ =>
      cases serves
      exact ⟨_, _, _, _, completes, rfl, rfl⟩
  | _ => cases serves

variable {S : Type} {world : World RouterSig S} {state final : S}

omit signs

/-- **How an attempt at an honest node ends.**  It fails over for a reason that
is not the answer to the completion, or because the node refused or signed a
value that no schema allows, or because its own quote was not honored; or it
serves what the runtime of the node returned for the request of the client, at
a price within the quote if one was asked for. -/
theorem attempt_at_node {attempt : SipRouter.Attempt}
    (signs : P.SignsFor (nodes client.baseUrl).gateway.keypair)
    (listed : candidate.manifest.get "provider_pubkey" =
      .str (publicKeyStr P (nodes client.baseUrl).gateway))
    (hosts : Hosts P codecs depth nodes world)
    (run : Exec world state
      (tryCandidate P options client candidate requestId) final (.ok attempt)) :
    AttemptEnds P codecs depth (nodes client.baseUrl) options requestId
      attempt :=
  (yields_attempt sound signs deep rfl listed).exec hosts run

/-- **What `chat` returns** over honest nodes is what the runtime of the node of
a registered provider returned for the model, the messages and the limit of the
client, with the receipt that this node made for it; and every attempt that it
records ended as an attempt at an honest node does. -/
theorem chat_at_nodes {registry : List ProviderEntry} {result : RouteResult}
    (honest : ∀ entry ∈ registry,
      P.SignsFor (nodes entry.baseUrl).gateway.keypair ∧
        entry.manifest.get "provider_pubkey" =
          .str (publicKeyStr P (nodes entry.baseUrl).gateway))
    (hosts : Hosts P codecs depth nodes world)
    (run : Exec world state (SipRouter.chat P options registry) final
      (.ok result)) :
    ∃ requestId, (∃ entry ∈ registry, result.baseUrl = entry.baseUrl) ∧
      (∃ order reported price receipt,
        CompletionFor P (nodes result.baseUrl) options requestId order reported
          price receipt ∧
        result.content = reported.content ∧ result.receipt = .obj receipt) ∧
      ∀ record ∈ result.attempts, ∃ attempt,
        AttemptEnds P codecs depth (nodes record.1) options requestId attempt ∧
          record.2 = attempt.label := by
  have yields := @SipRouter.yields_chat P options
    (AnsweredBy P codecs depth nodes) (fun requestId entry =>
      AttemptEnds P codecs depth (nodes entry.baseUrl) options requestId)
    registry ?_
  · obtain ⟨requestId, routed⟩ := yields.exec hosts run
    obtain ⟨attempt, served, ⟨entry, member, same, ends⟩, serves, isContent,
      isReceipt, _⟩ := routed.served
    refine ⟨requestId, ⟨entry, member, same⟩, ?_, ?_⟩
    · rw [same, isContent, isReceipt]
      exact ends.completion serves
    · intro record member
      rcases routed.recorded record member with none |
        ⟨attempt, ⟨entry, _, same, ends⟩, label⟩
      · cases none
      · rw [same]
        exact ⟨attempt, ends, label⟩
  · intro requestId entry member client same
    obtain ⟨signs, listed⟩ := honest entry member
    exact yields_attempt sound signs deep (by rw [same]) listed

end

def nodeReceipt : Dict :=
  [("receipt_version", .str "sip-ai.receipt.v1"), ("request_id", .str "r"),
    ("provider_pubkey", .str gatewayPubkey),
    ("model_manifest_hash", .str (text "sha256:" ++ List.replicate 64 0x30)),
    ("model_alias", .str "m"), ("runtime", .str "ollama"),
    ("input_tokens", .int 1), ("output_tokens", .int 1),
    ("price_units", .str "test"), ("price_amount", .str "0"),
    ("privacy_mode", .str "direct"),
    ("started_at", .str "2026-01-01T00:01:00Z"),
    ("completed_at", .str "2026-01-01T00:01:00Z"),
    ("response_hash", .str
      "sha256:2689367b205c16ce32ed4200942b8b8b1e262dfc70d9bc9fbc77c49699a4f1df"),
    ("request_hash", .str
      "sha256:6d139f1403cd84518768857efed6c375c0e3fe1af3f250cd3a5c59ea87a0323c")]

def nodeSignature : Text :=
  text "ed25519:GSJHUimzuNOJ8_aX61eFK2yOZ_xSUCw23F8yinmXGg" ++
    text "Zsjai1T0aE4EVUdzLfbi4UvOmd4Hnh-Emxr6ZwWvODBw"

def nodeTable : SignatureTable where
  keys := [(gatewayKeypair.privateKey, gatewayPubkey)]
  signatures := [(gatewayPubkey, nodeReceipt, nodeSignature)]

def nodePlatform : Platform := signingPlatform nodeTable gatewayKeypair

theorem nodePlatform_signs : nodePlatform.SignsFor gatewayKeypair :=
  signingPlatform_signs (by decide +kernel)

theorem nodePlatform_sound : nodePlatform.SchemaSound :=
  signingPlatform_sound nodeTable gatewayKeypair

def freeGateway : Gateway where
  adapterName := "ollama"
  keypair := gatewayKeypair
  allowedModels := ["m"]

def nodeEntry : ProviderEntry :=
  ⟨"http://a", [("models", .arr [.str "m"]),
    ("provider_pubkey", .str gatewayPubkey)]⟩

def nodeOptions : ChatOptions where
  model := "m"
  messages := [.obj [("role", .str "user"), ("content", .str "hi")]]

def nodeWire : Handler RouterSig HostState :=
  wired nodePlatform Http.utf8Codecs 4 freeGateway answeringHost

def wiredAttempt : RouterProg SipRouter.Attempt :=
  tryCandidate nodePlatform nodeOptions ⟨0, "http://a"⟩ nodeEntry "r"

theorem attempt_at_node_hi : ∃ final attempt,
    Exec nodeWire.world freshState wiredAttempt final (.ok attempt) ∧
      AttemptEnds nodePlatform Http.utf8Codecs 4
        (hostedNode freeGateway answeringHost) nodeOptions "r" attempt ∧
      attempt.label = "ok" := by
  have run := nodeWire.exec_run wiredAttempt freshState
  have serves : (nodeWire.run wiredAttempt freshState).1.map (·.label) =
      .ok (text "ok") := by decide +kernel
  cases ran : (nodeWire.run wiredAttempt freshState).1 with
  | error error =>
      rw [ran] at serves
      cases serves
  | ok attempt =>
      rw [ran] at run serves
      exact ⟨_, attempt, run, attempt_at_node nodePlatform_sound (by decide)
        nodePlatform_signs rfl (wired_hosts _ _ _ _ _) run,
        Except.ok.inj serves⟩

theorem chat_at_nodes_hi : ∃ final result reported,
    Exec nodeWire.world freshState
        (SipRouter.chat nodePlatform nodeOptions [nodeEntry]) final
        (.ok result) ∧
      (∃ order, Reported answeringHost.handler.world order reported) ∧
        result.content = reported.content := by
  have run := nodeWire.exec_run
    (SipRouter.chat nodePlatform nodeOptions [nodeEntry]) freshState
  have serves : (nodeWire.run (SipRouter.chat nodePlatform nodeOptions
      [nodeEntry]) freshState).1.map (·.content) = .ok (text "ok") := by
    decide +kernel
  cases ran : (nodeWire.run (SipRouter.chat nodePlatform nodeOptions
      [nodeEntry]) freshState).1 with
  | error error =>
      rw [ran] at serves
      cases serves
  | ok result =>
      rw [ran] at run
      obtain ⟨_, _, ⟨order, reported, _, _, completes, content, _⟩, _⟩ :=
        chat_at_nodes nodePlatform_sound (by decide) (by
          intro entry member
          cases List.mem_singleton.mp member
          exact ⟨nodePlatform_signs, rfl⟩) (wired_hosts _ _ _ _ _) run
      exact ⟨_, result, reported, run, ⟨order, completes.reported⟩, content⟩

end SovereignInference.SipGateway
