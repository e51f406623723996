import SovereignInference.Effects.Sum
import SovereignInference.SipPic.Ledger
import SovereignInference.SipPic.Settlement

/-!
# The provider gateway

`POST /v1/chat/completions`: a request is admitted, its payment is verified,
the model is served, the payment is committed and credited, and the answer
carries a signed receipt.
-/

namespace SovereignInference.SipGateway

open Python Effects SipProtocol SipPic

/-- The arguments of `create_app` that the handler reads.  The rate limiter and
the ledger are operations of the host; here is whether there is one. -/
structure Gateway where
  adapterName : Text
  keypair : KeyPair
  allowedModels : List Text
  token : Option Text := none
  maxOutputTokens : Int := 512
  maxInputChars : Int := 100000
  rateLimited : Bool := false
  modelManifestHash : Text := text "sha256:" ++ List.replicate 64 0x30
  priceUnits : Text := "test"
  inputPer1m : Text := "0"
  outputPer1m : Text := "0"
  requirePayment : Bool := false
  picIssuers : Option (List Text) := none
  keepsLedger : Bool := false
  acceptSchemes : Option (List Text) := none

/-- The headers the handler reads, and the JSON body unless it is malformed. -/
structure Request where
  authorization : Option Bytes
  privacyMode : Option Bytes
  requestId : Option Bytes
  body : Option Json

structure ChatResult where
  content : Text
  inputTokens : Int
  outputTokens : Int

/-- A `JSONResponse`: the content with its rendered bytes. -/
structure Response where
  status : Nat
  content : Dict
  body : Bytes

/-- Rendering happens when the response is built. -/
def jsonResponse (content : Dict) (status : Nat) : Except PyExc Response := do
  let body ← Json.dumpBytes false (.obj content)
  return ⟨status, content, body⟩

inductive HostOp where
  | now
  | allow
  | chat (model : Text) (messages : List Json) (maxTokens : Int)
  | record (entry : LedgerEntry)

/-- The clock, the rate limiter, the runtime adapter and the ledger. -/
abbrev HostSig : Signature where
  Op := HostOp
  Ans := fun
    | .now => DateTime
    | .allow => Bool
    | .chat _ _ _ => Except PyExc ChatResult
    | .record _ => Except PyExc Unit

abbrev GatewaySig : Signature := SpentSig.sum HostSig

def readClock : Prog GatewaySig PyExc DateTime := .call (.inr .now) .ret

def allow : Prog GatewaySig PyExc Bool := .call (.inr .allow) .ret

def chat (model : Text) (messages : List Json) (maxTokens : Int) :
    Prog GatewaySig PyExc (Except PyExc ChatResult) :=
  .call (.inr (.chat model messages maxTokens)) .ret

def record (entry : LedgerEntry) : Prog GatewaySig PyExc Unit :=
  .call (.inr (.record entry)) .ofExcept

def defaultPrivacyMode : Text := "direct"

def header (value : Option Bytes) (default : Text) : Text :=
  value.elim default latin1

def authOk (gateway : Gateway) (request : Request) : Except PyExc Bool :=
  match gateway.token with
  | none => .ok true
  | some token =>
      let (scheme, presented) :=
        partition (header request.authorization "") 0x20
      if asciiLower scheme = "bearer" then do
        return (← encodeUtf8 presented) = (← encodeUtf8 token)
      else .ok false

/-- A dict with a string `role` and a string `content`. -/
def validMessage (message : Json) : Bool :=
  message.asDict.any fun fields =>
    (fields.get "role").asStr.isSome && (fields.get "content").asStr.isSome

def validMessages (messages : Json) : Bool :=
  messages.asList.any fun items => !items.isEmpty && items.all validMessage

/-- `m["content"]` of a valid message. -/
def messageContent (message : Json) : Text :=
  (message.asDict.bind fun fields => (fields.get "content").asStr).getD []

/-- An admitted request. -/
structure Order where
  model : Text
  messages : List Json
  maxTokens : Int
  privacyMode : Text
  requestId : Text
  payment : Dict

/-- An error answer without further fields. -/
structure Refusal where
  status : Nat
  error : Text
  deriving DecidableEq

def Refusal.response (refusal : Refusal) : Except PyExc Response :=
  jsonResponse [("error", .str refusal.error)] refusal.status

def invalidFields : Refusal := ⟨400, "missing or invalid fields"⟩

/-- `max_tokens` if it is a positive integer. -/
def readMaxTokens (body : Dict) : Except Refusal Int :=
  match (body.find "max_tokens").getD (.int 256) with
  | .int maxTokens =>
      if maxTokens < 1 then .error ⟨400, "invalid max_tokens"⟩
      else .ok maxTokens
  | _ => .error ⟨400, "invalid max_tokens"⟩

/-- Everything the handler reads from the body and the headers, after the
checks on the fields, the allowlist and the caps. -/
def readOrder (gateway : Gateway) (request : Request) (body : Dict) :
    Except Refusal Order :=
  match (body.get "model").asStr, (body.get "messages").asList with
  | some model, some messages => do
      if !validMessages (.arr messages) then throw invalidFields
      let maxTokens ← readMaxTokens body
      if model ∉ gateway.allowedModels then
        throw ⟨404, "unknown model"⟩
      if maxTokens > gateway.maxOutputTokens then
        throw ⟨413, "max_tokens exceeds gateway cap"⟩
      let totalChars := (messages.map fun m => (messageContent m).length).sum
      if (totalChars : Int) > gateway.maxInputChars then
        throw ⟨413, "input too large"⟩
      return {
        model, messages, maxTokens
        privacyMode := header request.privacyMode defaultPrivacyMode
        requestId := header request.requestId "anon"
        payment := (body.get "sip_payment").asDict.getD [] }
  | _, _ => .error invalidFields

def admission (gateway : Gateway) (request : Request) :
    Except PyExc (Except Refusal Order) := do
  if !(← authOk gateway request) then
    return .error ⟨401, "unauthorized"⟩
  match request.body with
  | none => return .error ⟨400, "malformed JSON"⟩
  | some body =>
      match body.asDict with
      | none => return .error ⟨400, "body must be an object"⟩
      | some body => return readOrder gateway request body

/-- A price as a plain decimal string. -/
def formatAmount (value : Float) : Text :=
  let amount := rstrip 0x2E (rstrip 0x30 (format6f (round6 value)))
  if amount = [] then "0" else amount

/-- `(tokens / 1e6) * float(per_1m)`. -/
def tokenCost (tokens : Int) (per1m : Text) : Except PyExc Float := do
  let millions ← trueDiv (← floatOfInt tokens) 1e6
  return millions * (← parseFloat per1m)

/-- The price of input and output tokens.  The handlers are given for any. -/
abbrev Pricing := (inputTokens outputTokens : Int) → Except PyExc Text

def priceAmount (gateway : Gateway) : Pricing :=
    fun inputTokens outputTokens => do
  let input ← tokenCost inputTokens gateway.inputPer1m
  let output ← tokenCost outputTokens gateway.outputPer1m
  return formatAmount (input + output)

def billedInput (order : Order) : Int :=
  (order.messages.map fun m => (split (messageContent m)).length).sum

/-- The price of an admitted request: its words and its token limit. -/
def requiredPrice (gateway : Gateway) (order : Order) : Except PyExc Text :=
  priceAmount gateway (billedInput order) order.maxTokens

def issuers (gateway : Gateway) : List Text := gateway.picIssuers.getD []

def accepted (gateway : Gateway) : List Text :=
  gateway.acceptSchemes.getD ["pic", "x402"]

/-- The HTTP 402 challenge carrying the price of this request. -/
def paymentRequiredResponse (gateway : Gateway) (price : Text) :
    Except PyExc Response :=
  jsonResponse [("error", .str "payment required"),
    ("sip_payment_required", .obj (paymentRequired price gateway.priceUnits
      (issuers gateway) (accepted gateway)))] 402

/-- What the ledger cites: the voucher ids, or the key of the payer. -/
def paymentRefs (payment : Dict) : List Text :=
  if (payment.get "scheme").isStr "pic" then
    ((payment.get "vouchers").asList.getD []).filterMap voucherId
  else if (payment.get "scheme").isStr "x402" then
    ((payment.get "payment").asDict.bind fun inner =>
      (inner.get "payer_pubkey").asStr).toList
  else []

section

variable (pricing : Pricing) (P : Platform) (gateway : Gateway)

def publicKeyStr : Text := gateway.keypair.publicKeyStr P

def termsAt (order : Order) (required : Text) (moment : DateTime) : Terms where
  price := required
  unit := gateway.priceUnits
  issuerPubkeys := issuers gateway
  now := moment
  providerPubkey := some (publicKeyStr P gateway)
  requestId := some order.requestId

/-- Verify the payment without consuming it: the price to be paid, or the
challenge. -/
def verifyPayment (order : Order) :
    Prog GatewaySig PyExc (Except Response (Option Text)) := do
  if !gateway.requirePayment then
    return .ok none
  let required ← Prog.ofExcept (pricing (billedInput order) order.maxTokens)
  let moment ← readClock
  let check ← (redeem P (termsAt P gateway order required moment)
    order.payment false).left
  if check.ok then
    return .ok (some required)
  return .error (← Prog.ofExcept (paymentRequiredResponse gateway required))

def ledgerEntry (order : Order) (required : Text) : LedgerEntry where
  providerPubkey := publicKeyStr P gateway
  amount := required
  unit := gateway.priceUnits
  refs := paymentRefs order.payment

def creditLedger (order : Order) (required : Text) :
    Prog GatewaySig PyExc Unit :=
  if gateway.keepsLedger then record (ledgerEntry P gateway order required)
  else .ret ()

/-- Commit the payment and credit the ledger; a lost race is challenged. -/
def commitPayment (order : Order) :
    Option Text → Prog GatewaySig PyExc (Option Response)
  | none => .ret none
  | some required => do
      let moment ← readClock
      let committed ← (redeem P (termsAt P gateway order required moment)
        order.payment true).left
      if committed.ok then do
        creditLedger P gateway order required
        return none
      else
        return some
          (← Prog.ofExcept (paymentRequiredResponse gateway required))

def receiptFields (order : Order) (result : ChatResult) (price : Text)
    (started completed : DateTime) (responseHash requestHash : Text) :
    ReceiptFields where
  requestId := order.requestId
  providerPubkey := publicKeyStr P gateway
  modelManifestHash := gateway.modelManifestHash
  modelAlias := order.model
  runtime := gateway.adapterName
  inputTokens := result.inputTokens
  outputTokens := result.outputTokens
  priceUnits := gateway.priceUnits
  priceAmount := price
  privacyMode := order.privacyMode
  startedAt := started
  completedAt := completed
  responseHash := responseHash
  requestHash := requestHash

def signedReceipt (order : Order) (result : ChatResult) (price : Text)
    (started completed : DateTime) : Except PyExc Dict := do
  let responseHash ← hashResponseBody result.content
  let requestHash ← hashRequest (.str order.model) (.arr order.messages)
  let receipt ← buildReceipt P (receiptFields P gateway order result price
    started completed responseHash requestHash)
  signReceipt P receipt gateway.keypair

def completion (order : Order) (result : ChatResult) (receipt : Dict) : Dict :=
  [("id", .str ("chatcmpl-" ++ order.requestId)),
    ("object", .str "chat.completion"),
    ("model", .str order.model),
    ("choices", .arr [.obj [
      ("index", .int 0),
      ("message", .obj [
        ("role", .str "assistant"), ("content", .str result.content)]),
      ("finish_reason", .str "stop")]]),
    ("usage", .obj [
      ("prompt_tokens", .int result.inputTokens),
      ("completion_tokens", .int result.outputTokens),
      ("total_tokens", .int (result.inputTokens + result.outputTokens))]),
    ("sip_receipt", .obj receipt)]

/-- The receipt attests the price that was charged, if one was. -/
def receiptPrice (required : Option Text) (result : ChatResult) :
    Except PyExc Text :=
  match required with
  | some required => .ok required
  | none => pricing result.inputTokens result.outputTokens

def answer (order : Order) (required : Option Text) (result : ChatResult)
    (started completed : DateTime) : Except PyExc Response := do
  let price ← receiptPrice pricing required result
  let receipt ← signedReceipt P gateway order result price started completed
  jsonResponse (completion order result receipt) 200

/-- Serve a verified order; a failure of the runtime consumes nothing. -/
def serve (order : Order) (required : Option Text) :
    Prog GatewaySig PyExc Response := do
  let started ← readClock
  match ← chat order.model order.messages order.maxTokens with
  | .error _ =>
      Prog.ofExcept
        (Refusal.response ⟨502, "runtime error serving the model"⟩)
  | .ok result =>
      let completed ← readClock
      match ← commitPayment P gateway order required with
      | some challenge => return challenge
      | none =>
          Prog.ofExcept (answer pricing P gateway order required result started
            completed)

def handleOrder (order : Order) : Prog GatewaySig PyExc Response := do
  match ← verifyPayment pricing P gateway order with
  | .error challenge => return challenge
  | .ok required => serve pricing P gateway order required

def chatCompletionsBy (request : Request) : Prog GatewaySig PyExc Response := do
  match ← Prog.ofExcept (admission gateway request) with
  | .error refusal => Prog.ofExcept refusal.response
  | .ok order =>
      if gateway.rateLimited then
        if !(← allow) then
          return ← Prog.ofExcept (Refusal.response ⟨429, "rate limited"⟩)
      handleOrder pricing P gateway order

/-- The endpoint prices in floating point. -/
def chatCompletions (request : Request) : Prog GatewaySig PyExc Response :=
  chatCompletionsBy (priceAmount gateway) P gateway request

end

end SovereignInference.SipGateway
