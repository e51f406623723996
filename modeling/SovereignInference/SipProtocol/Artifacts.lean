import SovereignInference.SipProtocol.Documents

/-!
# Receipts, quotes, vouchers and provider manifests

Each kind of signed artifact has its builder, its verification against the
schema and the embedded key, and, where it expires, its expiry check.
-/

namespace SovereignInference.SipProtocol

open Python Effects

section

variable (P : Platform)

def utcIso (moment : DateTime) : Except PyExc Text := do
  return DateTime.isoText (← moment.toUtc P.localOffset)

/-- `now` is at or past the `expires_at` of the document, or that is
malformed. -/
def isExpired (document : Dict) (now : DateTime) : Except PyExc Bool :=
  match document.get "expires_at" with
  | .str raw =>
      match DateTime.fromIsoFormat (replace raw 0x5A "+00:00") with
      | none => .ok true
      | some expires => do
          let current ← now.toUtc P.localOffset
          let expiry ← expires.toUtc P.localOffset
          return decide (expiry ≤ current)
  | _ => .ok true

structure ReceiptFields where
  requestId : Text
  providerPubkey : Text
  modelManifestHash : Text
  modelAlias : Text
  runtime : Text
  inputTokens : Int
  outputTokens : Int
  priceUnits : Text
  priceAmount : Text
  privacyMode : Text
  startedAt : DateTime
  completedAt : DateTime
  responseHash : Text
  requestHash : Text

/-- `build_receipt` without a runtime version and with a request hash. -/
def buildReceipt (fields : ReceiptFields) : Except PyExc Dict := do
  let startedAt ← utcIso P fields.startedAt
  let completedAt ← utcIso P fields.completedAt
  return [("receipt_version", .str "sip-ai.receipt.v1"),
    ("request_id", .str fields.requestId),
    ("provider_pubkey", .str fields.providerPubkey),
    ("model_manifest_hash", .str fields.modelManifestHash),
    ("model_alias", .str fields.modelAlias),
    ("runtime", .str fields.runtime),
    ("input_tokens", .int fields.inputTokens),
    ("output_tokens", .int fields.outputTokens),
    ("price_units", .str fields.priceUnits),
    ("price_amount", .str fields.priceAmount),
    ("privacy_mode", .str fields.privacyMode),
    ("started_at", .str startedAt),
    ("completed_at", .str completedAt),
    ("response_hash", .str fields.responseHash),
    ("request_hash", .str fields.requestHash)]

def signReceipt (receipt : Dict) (keypair : KeyPair) : Except PyExc Dict :=
  signDocument P receipt keypair

def verifyReceipt (receipt : Dict) : Except PyExc VerificationResult :=
  verifySigned P Schemas.receipt "provider_pubkey" "provider" receipt

structure QuoteFields where
  requestId : Text
  providerPubkey : Text
  modelAlias : Text
  priceUnits : Text
  inputPer1m : Text
  outputPer1m : Text
  maxOutputTokens : Int
  maxPrice : Text
  issuedAt : DateTime
  expiresAt : DateTime
  privacyMode : Option Text

def buildQuote (fields : QuoteFields) : Except PyExc Dict := do
  let issuedAt ← utcIso P fields.issuedAt
  let expiresAt ← utcIso P fields.expiresAt
  let quote : Dict := [("quote_version", .str "sip-ai.quote.v1"),
    ("request_id", .str fields.requestId),
    ("provider_pubkey", .str fields.providerPubkey),
    ("model_alias", .str fields.modelAlias),
    ("price_units", .str fields.priceUnits),
    ("input_per_1m", .str fields.inputPer1m),
    ("output_per_1m", .str fields.outputPer1m),
    ("max_output_tokens", .int fields.maxOutputTokens),
    ("max_price", .str fields.maxPrice),
    ("issued_at", .str issuedAt),
    ("expires_at", .str expiresAt)]
  return match fields.privacyMode with
    | some privacyMode => quote.set "privacy_mode" (.str privacyMode)
    | none => quote

def signQuote (quote : Dict) (keypair : KeyPair) : Except PyExc Dict :=
  signDocument P quote keypair

def verifyQuote (quote : Dict) : Except PyExc VerificationResult :=
  verifySigned P Schemas.quote "provider_pubkey" "provider" quote

def quoteIsExpired (quote : Dict) (now : DateTime) : Except PyExc Bool :=
  isExpired P quote now

def verifyVoucher (voucher : Dict) : Except PyExc VerificationResult :=
  verifySigned P Schemas.voucher "issuer_pubkey" "issuer" voucher

def voucherIsExpired (voucher : Dict) (now : DateTime) : Except PyExc Bool :=
  isExpired P voucher now

def verifyProviderManifest (manifest : Dict) : Except PyExc Bool :=
  if (iterErrors P Schemas.providerManifest (.obj manifest)).isEmpty then
    verifyDocument P manifest "provider_pubkey"
  else .ok false

def verifyAttestation (statement : Dict) : Except PyExc Bool :=
  if (iterErrors P Schemas.attestation (.obj statement)).isEmpty then
    verifyDocument P statement "provider_pubkey"
  else .ok false

end

end SovereignInference.SipProtocol
