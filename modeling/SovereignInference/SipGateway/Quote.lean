import SovereignInference.Python.FixedPoint
import SovereignInference.SipGateway.App

/-!
# Quotes and pricing

`POST /sip/v1/quote` commits to a price before the prompt is known.  It prices
as completions are priced: in floating point, or here in exact arithmetic.
-/

namespace SovereignInference.SipGateway

open Python Effects SipProtocol SipPic

/-- `_price_amount` in exact arithmetic, rounded half to even. -/
def priceExact (gateway : Gateway) : Pricing := fun inputTokens outputTokens => do
  let inputRate ← parseExact gateway.inputPer1m
  let outputRate ← parseExact gateway.outputPer1m
  return formatExact
    (inputTokens / 10 ^ 6 * inputRate + outputTokens / 10 ^ 6 * outputRate)

/-- What the quote endpoint reads from the body. -/
structure QuoteOrder where
  requestId : Text
  model : Text
  maxOutputTokens : Int
  privacyMode : Option Text

def readQuoteOrder (gateway : Gateway) (body : Dict) :
    Except Refusal QuoteOrder :=
  match (body.get "request_id").asStr, (body.get "model").asStr,
      body.get "max_output_tokens" with
  | some requestId, some model, .int maxOutputTokens =>
      if maxOutputTokens < 1 then .error invalidFields
      else if model ∉ gateway.allowedModels then
        .error ⟨404, "unknown model"⟩
      else .ok ⟨requestId, model, maxOutputTokens,
        (body.get "privacy_mode").asStr⟩
  | _, _, _ => .error invalidFields

def quoteAdmission (gateway : Gateway) (request : Request) :
    Except PyExc (Except Refusal QuoteOrder) := do
  if !(← authOk gateway request) then
    return .error ⟨401, "unauthorized"⟩
  match request.body with
  | none => return .error ⟨400, "malformed JSON"⟩
  | some body =>
      match body.asDict with
      | none => return .error ⟨400, "body must be an object"⟩
      | some body => return readQuoteOrder gateway body

/-- `timedelta(minutes=5)`, in microseconds. -/
def quoteLifetime : Int := 5 * 60 * 10 ^ 6

section

variable (pricing : Pricing) (P : Platform) (gateway : Gateway)

def quoteFields (order : QuoteOrder) (maxPrice : Text)
    (issued expires : DateTime) : QuoteFields where
  requestId := order.requestId
  providerPubkey := publicKeyStr P gateway
  modelAlias := order.model
  priceUnits := gateway.priceUnits
  inputPer1m := gateway.inputPer1m
  outputPer1m := gateway.outputPer1m
  maxOutputTokens := order.maxOutputTokens
  maxPrice := maxPrice
  issuedAt := issued
  expiresAt := expires
  privacyMode := order.privacyMode

/-- The prompt is not known yet, so the cap on its characters stands for its
tokens. -/
def signedQuote (order : QuoteOrder) (issued : DateTime) :
    Except PyExc Dict := do
  let maxPrice ← pricing gateway.maxInputChars order.maxOutputTokens
  let expires ← issued.later quoteLifetime
  let unsigned ← buildQuote P
    (quoteFields P gateway order maxPrice issued expires)
  signQuote P unsigned gateway.keypair

def quote (request : Request) : Prog GatewaySig PyExc Response := do
  match ← Prog.ofExcept (quoteAdmission gateway request) with
  | .error refusal => Prog.ofExcept refusal.response
  | .ok order => do
      let issued ← readClock
      Prog.ofExcept (do
        let signed ← signedQuote pricing P gateway order issued
        jsonResponse signed 200)

end

end SovereignInference.SipGateway
