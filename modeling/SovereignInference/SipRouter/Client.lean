import SovereignInference.Effects.Program
import SovereignInference.SipPic.Wallet
import SovereignInference.SipRouter.Resolver

/-!
# The routing client

`SovereignClient.chat` walks the ranked providers of a model: health check,
quote, completion, and payment with one retry when a provider asks for it.  It
fails over until a provider serves a response that passes the checks.
-/

namespace SovereignInference.SipRouter

open Python Effects SipProtocol SipPic

/-- The HTTP client made for one attempt. -/
structure HttpClient where
  attempt : Nat
  baseUrl : Text
  deriving DecidableEq

/-- What the router reads of an HTTP response; `json` is `response.json()`. -/
structure Response where
  statusCode : Nat
  json : Except PyExc Json

inductive RouterOp where
  | requestId
  | now
  | tokenUrlsafe
  | clientFactory (client : HttpClient)
  | get (client : HttpClient) (path : Text)
  | post (client : HttpClient) (path : Text) (headers body : Dict)
  | heldVouchers
  | keepVouchers (held : List HeldVoucher)
  | addVouchers (vouchers : List HeldVoucher)

/-- The id factory, the clock, the source of nonces, the factory of HTTP
clients, the providers and the list of the wallet.  An HTTP call that fails
gives the name of the error; a client cannot be made for every URL. -/
abbrev RouterSig : Signature where
  Op := RouterOp
  Ans := fun
    | .requestId => Text
    | .now => DateTime
    | .tokenUrlsafe => Text
    | .clientFactory _ => Except PyExc Unit
    | .get _ _ => Except Text Response
    | .post _ _ _ _ => Except Text Response
    | .heldVouchers => List HeldVoucher
    | .keepVouchers _ => Unit
    | .addVouchers _ => Unit

/-- The errors of the client: a failed HTTP call, the end of the candidates,
or what a helper raises. -/
inductive RouterExc where
  | transport (name : Text)
  | noProviderAvailable (model : Text) (attempts : List (Text × Text))
  | raised (error : PyExc)
  deriving DecidableEq

abbrev RouterProg := Prog RouterSig RouterExc

/-- The outcome of a helper. -/
def lift {α : Type} : Except PyExc α → RouterProg α
  | .ok value => .ret value
  | .error error => .raise (.raised error)

/-- The outcome of an HTTP call. -/
def answered : Except Text Response → RouterProg Response
  | .ok response => .ret response
  | .error name => .raise (.transport name)

def newRequestId : RouterProg Text := .call .requestId .ret

def readClock : RouterProg DateTime := .call .now .ret

def tokenUrlsafe : RouterProg Text := .call .tokenUrlsafe .ret

/-- `self._client_factory(base_url)`. -/
def clientFactory (client : HttpClient) : RouterProg Unit :=
  .call (.clientFactory client) lift

def httpGet (client : HttpClient) (path : Text) : RouterProg Response :=
  .call (.get client path) answered

/-- The value of a header is a string of ASCII characters. -/
def encodeHeader : Json → Except PyExc Bytes
  | .str value =>
      if value.all (·.val < 0x80) then
        .ok (value.map fun c => UInt8.ofNat c.val)
      else .error .unicodeEncodeError
  | _ => .error .typeError

/-- A request is encoded before it is sent: its headers, and its body as JSON
without NaN. -/
def encodeRequest (headers body : Dict) : Except PyExc Bytes := do
  let _ ← headers.mapM fun header => encodeHeader header.2
  Json.dumpBytes false (.obj body)

def httpPost (client : HttpClient) (path : Text) (headers body : Dict) :
    RouterProg Response := do
  let _ ← lift (encodeRequest headers body)
  .call (.post client path headers body) answered

def heldVouchers : RouterProg (List HeldVoucher) := .call .heldVouchers .ret

def keepVouchers (held : List HeldVoucher) : RouterProg Unit :=
  .call (.keepVouchers held) .ret

/-- `wallet.add(*vouchers)`. -/
def addVouchers (vouchers : List HeldVoucher) : RouterProg Unit :=
  .call (.addVouchers vouchers) .ret

structure ChatOptions where
  model : Text
  messages : List Json
  maxTokens : Int := 256
  privacyMode : Text := "direct"
  verifyReceipts : Bool := true
  getQuote : Bool := false
  maxProviders : Option Int := none
  weights : Option Weights := none
  wallet : Bool := false
  x402Keypair : Option KeyPair := none
  token : Option Text := none

structure Served where
  content : Text
  receipt : Json
  quote : Option Dict

/-- `_Attempt`: a served result or the label of a failure. -/
structure Attempt where
  label : Text
  result : Option Served

def Attempt.failed (label : Text) : Attempt := ⟨label, none⟩

def Attempt.served (result : Served) : Attempt := ⟨"ok", some result⟩

structure RouteResult where
  content : Text
  receipt : Json
  providerPubkey : Json
  baseUrl : Text
  quote : Option Dict
  attempts : List (Text × Text)

section

variable (P : Platform) (options : ChatOptions)

/-- `_safe_json`: `None` for a body that is not JSON. -/
def safeJson (response : Response) : Except PyExc Json :=
  match response.json with
  | .ok value => .ok value
  | .error error => if error.isValueError then .ok .null else .error error

/-- `_extract_content`. -/
def extractContent (body : Json) : Option Text := do
  let body ← body.asDict
  let choices ← (body.get "choices").asList
  let first ← choices.head?
  let first ← first.asDict
  let message ← (first.get "message").asDict
  (message.get "content").asStr

/-- `_receipt_trusted`. -/
def receiptTrusted (receipt : Json) (candidate : ProviderEntry)
    (content : Text) : Except PyExc Bool :=
  match receipt.asDict with
  | none => .ok false
  | some receipt => do
      if !(← verifyReceipt P receipt).valid then return false
      if !(receipt.get "provider_pubkey").pyEq
          (candidate.manifest.get "provider_pubkey") then return false
      return (receipt.get "response_hash").isStr (← hashResponseBody content)

/-- `Decimal(str(x))`. -/
def priceOf (value : Json) : Except PyExc Decimal := do
  Decimal.parse (← value.toStr P.isPrintable)

/-- Both prices, unless one cannot be read as a decimal. -/
def readPrices (charged committed : Json) :
    Except PyExc (Option (Decimal × Decimal)) :=
  match (do return (← priceOf P charged, ← priceOf P committed) :
      Except PyExc (Decimal × Decimal)) with
  | .ok prices => .ok (some prices)
  | .error error =>
      if error = .invalidOperation ∨ error = .typeError then .ok none
      else .error error

/-- The receipt is in the units of the quote and within its price. -/
def withinQuote (quote : Dict) (receipt : Json) : Except PyExc Bool :=
  match receipt.asDict with
  | none => .ok false
  | some receipt => do
      if !(receipt.get "price_units").pyEq (quote.get "price_units") then
        return false
      match ← readPrices P (receipt.get "price_amount")
          (quote.get "max_price") with
      | none => return false
      | some (charged, committed) => charged.le committed

/-- `_quote_honored`. -/
def quoteHonored (quote : Dict) (receipt : Json) (candidate : ProviderEntry) :
    RouterProg Bool := do
  if !(quote.get "provider_pubkey").pyEq
      (candidate.manifest.get "provider_pubkey") then return false
  let now ← readClock
  if ← lift (quoteIsExpired P quote now) then return false
  lift (withinQuote P quote receipt)

def healthPath : Text := "/sip/v1/health"

def quotePath : Text := "/sip/v1/quote"

def completionsPath : Text := "/v1/chat/completions"

/-- `_health_ok`. -/
def healthOk (client : HttpClient) : RouterProg Bool := do
  let response ← httpGet client healthPath
  if response.statusCode ≠ 200 then return false
  let body ← lift (safeJson response)
  return body.asDict.any fun body => (body.get "status").isStr "ok"

def authorization : Dict :=
  match options.token with
  | some token => [("Authorization", .str (text "Bearer " ++ token))]
  | none => []

def quoteRequest (requestId : Text) : Dict :=
  [("request_id", .str requestId), ("model", .str options.model),
    ("max_output_tokens", .int options.maxTokens),
    ("privacy_mode", .str options.privacyMode)]

/-- A JSON object that verifies as a quote. -/
def readQuote (body : Json) : Except PyExc (Option Dict) :=
  match body.asDict with
  | none => .ok none
  | some quote => do
      return if (← verifyQuote P quote).valid then some quote else none

/-- `_fetch_quote`. -/
def fetchQuote (client : HttpClient) (requestId : Text) :
    RouterProg (Option Dict) := do
  let response ← httpPost client quotePath (authorization options)
    (quoteRequest options requestId)
  if response.statusCode ≠ 200 then return none
  let body ← lift (safeJson response)
  lift (readQuote P body)

/-- The body of a completion request. -/
def completionBody (payment : Option Dict) : Dict :=
  let request : Dict := [("model", .str options.model),
    ("messages", .arr options.messages), ("max_tokens", .int options.maxTokens)]
  match payment with
  | some payment => request.set "sip_payment" (.obj payment)
  | none => request

/-- `_completion_headers`. -/
def completionHeaders (requestId : Text) : Dict :=
  ("X-SIP-Request-Id", .str requestId) ::
    ("X-SIP-Privacy-Mode", .str options.privacyMode) :: authorization options

/-- `_post_completion`. -/
def postCompletion (client : HttpClient) (requestId : Text)
    (payment : Option Dict) : RouterProg Response :=
  httpPost client completionsPath (completionHeaders options requestId)
    (completionBody options payment)

/-- A failover, or a payment with the vouchers taken for it. -/
inductive Preparation where
  | failover (label : Text)
  | pay (payment : Dict) (reserved : Option (List HeldVoucher))

def accepts (accepted : List Json) (scheme : Text) : Bool :=
  accepted.any (Json.isStr scheme)

/-- The challenge in the body of a 402 response. -/
def challengeOf (body : Json) : Option Dict :=
  body.asDict.bind fun body => (body.get "sip_payment_required").asDict

def picPayment (vouchers : List HeldVoucher) : Dict :=
  buildPicPayment (vouchers.map fun held => .obj held.voucher)

/-- Take vouchers for the price out of the wallet. -/
def reserveVouchers (price unit : Text) : RouterProg Preparation := do
  let held ← heldVouchers
  match Wallet.select P.precision held price unit with
  | .ok (picked, rest) =>
      keepVouchers rest
      return .pay (picPayment picked) (some picked)
  | .error error =>
      if error = .insufficientFunds then
        return .failover "insufficient_funds"
      else Prog.raise (.raised error)

/-- Sign a direct payment of the price. -/
def signPayment (keypair : KeyPair) (price unit : Text)
    (candidate : ProviderEntry) (requestId : Text) :
    RouterProg Preparation := do
  let nonce ← tokenUrlsafe
  let now ← readClock
  let payment ← lift (buildX402Payment P keypair price unit nonce now
    (candidate.manifest.get "provider_pubkey") requestId)
  return .pay payment none

/-- Pay a challenge by the first scheme that both sides have. -/
def payChallenge (challenge : Dict) (candidate : ProviderEntry)
    (requestId : Text) : RouterProg Preparation := do
  let price ← lift ((challenge.get "price_amount").toStr P.isPrintable)
  let unit ← lift ((challenge.get "price_units").toStr P.isPrintable)
  let accepted := (challenge.get "accepted_schemes").asList.getD []
  if options.wallet && accepts accepted "pic" then
    reserveVouchers P price unit
  else
    match options.x402Keypair.filter fun _ => accepts accepted "x402" with
    | some keypair => signPayment P keypair price unit candidate requestId
    | none => return .failover "payment_required"

/-- `_prepare_payment`. -/
def preparePayment (response : Response) (candidate : ProviderEntry)
    (requestId : Text) : RouterProg Preparation := do
  let body ← lift (safeJson response)
  match challengeOf body with
  | none => return .failover "payment_required"
  | some challenge => payChallenge P options challenge candidate requestId

/-- Return reserved vouchers to the wallet. -/
def restore : Option (List HeldVoucher) → RouterProg Unit
  | none => .ret ()
  | some vouchers => addVouchers vouchers

/-- `_payment_failover`. -/
def paymentFailover (reserved : Option (List HeldVoucher)) (detail : Text) :
    RouterProg Attempt := do
  match reserved with
  | none => return .failed detail
  | some _ =>
      restore reserved
      return .failed "payment_rejected"

def httpDetail (status : Nat) : Text := text "http_" ++ natText status

/-- The receipt is trusted, or need not be. -/
def receiptAccepted (receipt : Json) (candidate : ProviderEntry)
    (content : Text) : RouterProg Bool :=
  if options.verifyReceipts then
    lift (receiptTrusted P receipt candidate content)
  else .ret true

/-- The quote is honored, if there is one. -/
def quoteAccepted (quote : Option Dict) (receipt : Json)
    (candidate : ProviderEntry) : RouterProg Bool :=
  match quote with
  | some quote => quoteHonored P quote receipt candidate
  | none => .ret true

/-- `_serve` from the last response on. -/
def judge (response : Response) (reserved : Option (List HeldVoucher))
    (quote : Option Dict) (candidate : ProviderEntry) :
    RouterProg Attempt := do
  if response.statusCode ≠ 200 then
    paymentFailover reserved (httpDetail response.statusCode)
  else
    let body ← lift (safeJson response)
    match extractContent body with
    | none => paymentFailover reserved "malformed_response"
    | some content =>
        let receipt := (body.asDict.getD []).get "sip_receipt"
        if !(← receiptAccepted P options receipt candidate content) then
          paymentFailover reserved "receipt_unverified"
        else if !(← quoteAccepted P quote receipt candidate) then
          paymentFailover reserved "quote_violated"
        else
          return .served ⟨content, orElse receipt (.obj []), quote⟩

/-- Post again with the payment; a network fault returns the vouchers. -/
def retryPaid (client : HttpClient) (requestId : Text) (payment : Dict)
    (reserved : Option (List HeldVoucher)) : RouterProg Response :=
  (postCompletion options client requestId (some payment)).tryCatch fun
    | .transport name => do
        restore reserved
        Prog.raise (.transport name)
    | error => Prog.raise error

/-- `_serve` from the completion on. -/
def complete (client : HttpClient) (candidate : ProviderEntry)
    (requestId : Text) (quote : Option Dict) : RouterProg Attempt := do
  let response ← postCompletion options client requestId none
  if response.statusCode = 402 then
    match ← preparePayment P options response candidate requestId with
    | .failover label => return .failed label
    | .pay payment reserved =>
        let response ← retryPaid options client requestId payment reserved
        judge P options response reserved quote candidate
  else judge P options response none quote candidate

/-- `_serve`. -/
def serve (client : HttpClient) (candidate : ProviderEntry)
    (requestId : Text) : RouterProg Attempt := do
  if !(← healthOk client) then
    return .failed "unhealthy"
  if options.getQuote then
    match ← fetchQuote P options client requestId with
    | none => return .failed "quote_invalid"
    | some quote => complete P options client candidate requestId (some quote)
  else complete P options client candidate requestId none

/-- `_try_candidate`; the client is made before the `try`. -/
def tryCandidate (client : HttpClient) (candidate : ProviderEntry)
    (requestId : Text) : RouterProg Attempt := do
  clientFactory client
  (serve P options client candidate requestId).tryCatch fun
    | .transport name =>
        .ret (.failed (text "transport_error: " ++ name))
    | error => Prog.raise error

/-- `candidate.manifest["provider_pubkey"]`. -/
def entryPubkey (candidate : ProviderEntry) : Except PyExc Json :=
  match candidate.manifest.find "provider_pubkey" with
  | some publicKey => .ok publicKey
  | none => .error .keyError

def tryCandidates (requestId : Text) :
    List ProviderEntry → (attempts : List (Text × Text)) →
      RouterProg RouteResult
  | [], attempts => .raise (.noProviderAvailable options.model attempts)
  | candidate :: rest, attempts => do
      let client : HttpClient := ⟨attempts.length, candidate.baseUrl⟩
      let outcome ← tryCandidate P options client candidate requestId
      let attempts := attempts ++ [(candidate.baseUrl, outcome.label)]
      match outcome.result with
      | some result =>
          let providerPubkey ← lift (entryPubkey candidate)
          return ⟨result.content, result.receipt, providerPubkey,
            candidate.baseUrl, result.quote, attempts⟩
      | none => tryCandidates requestId rest attempts

/-- The candidates of `chat`: the ranked providers, cut to `max_providers`. -/
def candidatesOf (registry : List ProviderEntry) :
    Except PyExc (List ProviderEntry) := do
  let ranked ← resolve registry options.model (some options.privacyMode)
    options.weights
  return match options.maxProviders with
    | some count => takeTo count ranked
    | none => ranked

def chat (registry : List ProviderEntry) : RouterProg RouteResult := do
  let candidates ← lift (candidatesOf options registry)
  let requestId ← newRequestId
  tryCandidates P options requestId candidates []

end

end SovereignInference.SipRouter
