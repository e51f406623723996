import SovereignInference.Python.TimeDelta
import SovereignInference.SipPic.SpentSet
import SovereignInference.SipProtocol.Artifacts

/-!
# Redeeming payments

A payment is a batch of vouchers or one payment signed by the payer.  Both are
verified first, against the guard as well; committing then spends the keys of
the payment, and gives back what was spent of a batch that lost a key.
-/

namespace SovereignInference.SipPic

open Python Effects SipProtocol

section

variable (P : Platform)

def buildPicPayment (vouchers : List Json) : Dict :=
  [("scheme", .str "pic"), ("vouchers", .arr vouchers)]

def paymentRequired (price unit : Text) (issuerPubkeys accept : List Text) :
    Dict :=
  [("price_amount", .str price), ("price_units", .str unit),
    ("accepted_schemes", .arr (accept.map .str)),
    ("pic_issuers", .arr (issuerPubkeys.map .str))]

/-- A string nonce that is not empty. -/
def innerNonce (inner : Dict) : Option Text :=
  (inner.get "nonce").asStr.filter (· ≠ [])

def x402Nonce (payment : Dict) : Option Text :=
  (payment.get "payment").asDict.bind innerNonce

/-- `Decimal(amount) >= Decimal(price)`, and false if either is not a decimal
or a NaN. -/
def covers (amount price : Text) : Bool :=
  match Decimal.parse amount, Decimal.parse price with
  | .ok amount, .ok price =>
      match amount.lt price with
      | .ok less => !less
      | .error _ => false
  | _, _ => false

def maxAgeSeconds : Int := 300

/-- The field equals the expected value, if one is expected. -/
def boundTo (inner : Dict) (field : Text) (expected : Option Text) : Bool :=
  expected.all fun value => (inner.get field).isStr value

/-- The checks on the signed part of an x402 payment. -/
def verifyX402InnerWithin (maxAge : Int) (inner : Dict) (price unit : Text)
    (now : DateTime) (providerPubkey requestId : Option Text) :
    Except PyExc Bool := do
  if !(inner.get "unit").isStr unit then return false
  if (innerNonce inner).isNone then return false
  if !boundTo inner "provider_pubkey" providerPubkey then return false
  if !boundTo inner "request_id" requestId then return false
  let amount ← (inner.get "amount").toStr P.isPrintable
  if !covers amount price then return false
  if !(← verifyDocument P inner "payer_pubkey") then return false
  match inner.get "issued_at" with
  | .str raw =>
      match DateTime.fromIsoFormat (replace raw 0x5A "+00:00") with
      | none => return false
      | some issued =>
          let current ← now.toUtc P.localOffset
          let issued ← issued.toUtc P.localOffset
          return secondsLe (current - issued) maxAge
  | _ => return false

/-- `verify_x402_payment` for any `max_age_seconds`. -/
def verifyX402Within (maxAge : Int) (payment : Dict) (price unit : Text)
    (now : DateTime) (providerPubkey requestId : Option Text) :
    Except PyExc Bool :=
  if (payment.get "scheme").isStr "x402" then
    match (payment.get "payment").asDict with
    | some inner =>
        verifyX402InnerWithin P maxAge inner price unit now providerPubkey
          requestId
    | none => .ok false
  else .ok false

def verifyX402Payment (payment : Dict) (price unit : Text) (now : DateTime)
    (providerPubkey requestId : Option Text) : Except PyExc Bool :=
  verifyX402Within P maxAgeSeconds payment price unit now providerPubkey
    requestId

def refused (scheme : Text) (total reason : Text) : RedeemResult :=
  ⟨false, scheme, total, reason⟩

/-- The reason a voucher is not acceptable, or `none`. -/
def validateVoucher (voucher : Dict) (unit : Text)
    (issuerPubkeys : List Text) (now : DateTime) :
    Except PyExc (Option Text) := do
  if !(← verifyVoucher P voucher).valid then return some "invalid_voucher"
  if !(voucher.get "unit").isStr unit then return some "invalid_voucher"
  if !issuerPubkeys.any fun issuer =>
      (voucher.get "issuer_pubkey").isStr issuer then
    return some "wrong_issuer"
  if ← voucherIsExpired P voucher now then return some "expired"
  return none

/-- The vouchers of a batch with their ids, unless one has no id or the id of
an earlier one. -/
def readBatch : List Json → (seen : List Text) →
    Except PyExc (Option (List (Text × Dict)))
  | [], _ => .ok (some [])
  | item :: rest, seen =>
      match item.asDict with
      | none => .error .attributeError
      | some voucher =>
          match (voucher.get "voucher_id").asStr with
          | none => .ok none
          | some id =>
              if id ∈ seen then .ok none
              else do
                let batch ← readBatch rest (id :: seen)
                return batch.map fun batch => (id, voucher) :: batch

/-- `Decimal(voucher["denomination"])`; the schema makes it a string. -/
def denomination (voucher : Dict) : Except PyExc Decimal :=
  match voucher.find "denomination" with
  | some (.str amount) => Decimal.parse amount
  | some _ => .error .typeError
  | none => .error .keyError

/-- The errors that make a denomination an invalid voucher. -/
def isDenominationError (error : PyExc) : Bool :=
  error = .invalidOperation || error = .keyError || error = .typeError

/-- Add the denomination of a voucher, or `none` for an invalid one. -/
def addDenomination (total : Decimal) (voucher : Dict) :
    Except PyExc (Option Decimal) :=
  match denomination voucher >>= total.add P.precision with
  | .ok sum => .ok (some sum)
  | .error error =>
      if isDenominationError error then .ok none else .error error

/-- Validate every voucher and look it up before anything is consumed: the sum
of the batch, or the reason against it. -/
def validateBatch (unit : Text) (issuerPubkeys : List Text)
    (now : DateTime) : List (Text × Dict) → Decimal →
      Prog SpentSig PyExc (Except Text Decimal)
  | [], total => .ret (.ok total)
  | (id, voucher) :: rest, total => do
      match ← Prog.ofExcept
          (validateVoucher P voucher unit issuerPubkeys now) with
      | some reason => return .error reason
      | none =>
          if ← isSpent id then
            return .error "double_spend"
          match ← Prog.ofExcept (addDenomination P total voucher) with
          | none => return .error "invalid_voucher"
          | some total =>
              validateBatch unit issuerPubkeys now rest total

/-- Give back what was spent of a batch. -/
def unspendAll : List Text → Prog SpentSig PyExc Unit
  | [] => .ret ()
  | id :: rest => do
      unspend id
      unspendAll rest

/-- Spend the ids in order; the first one that is already spent undoes the
ones before it. -/
def spendAll : List Text → (spentIds : List Text) →
    Prog SpentSig PyExc Bool
  | [], _ => .ret true
  | id :: rest, spentIds => do
      if ← spend id then
        spendAll rest (spentIds ++ [id])
      else
        unspendAll spentIds
        return false

/-- Consume a validated batch, unless the payment is only verified. -/
def consumeBatch (ids : List Text) (total : Text) (commit : Bool) :
    Prog SpentSig PyExc RedeemResult := do
  if !commit then
    return ⟨true, "pic", total, ""⟩
  if ← spendAll ids [] then
    return ⟨true, "pic", total, ""⟩
  return refused "pic" total "double_spend"

/-- Validate a batch, compare it with the price, and consume it. -/
def redeemBatch (batch : List (Text × Dict)) (price unit : Text)
    (issuerPubkeys : List Text) (now : DateTime) (commit : Bool) :
    Prog SpentSig PyExc RedeemResult := do
  match ← validateBatch P unit issuerPubkeys now batch .zero with
  | .error reason => return refused "pic" "0" reason
  | .ok total =>
      let price ← Prog.ofExcept (Decimal.parse price)
      if ← Prog.ofExcept (total.lt price) then
        return refused "pic" total.toText "insufficient"
      consumeBatch (batch.map (·.1)) total.toText commit

def redeemPic (payment : Dict) (price unit : Text)
    (issuerPubkeys : List Text) (now : DateTime) (commit : Bool) :
    Prog SpentSig PyExc RedeemResult := do
  match (payment.get "vouchers").asList with
  | some (first :: others) =>
      match ← Prog.ofExcept (readBatch (first :: others) []) with
      | none => return refused "pic" "0" "double_spend"
      | some batch =>
          redeemBatch P batch price unit issuerPubkeys now commit
  | _ => return refused "pic" "0" "invalid_voucher"

def x402SpendKey (nonce : Text) : Text := "x402:" ++ nonce

/-- The amount an x402 payment states. -/
def x402Amount (payment : Dict) (price : Text) : Except PyExc Text :=
  match (payment.get "payment").asDict with
  | some inner => ((inner.find "amount").getD (.str price)).toStr P.isPrintable
  | none => .ok price

def redeemX402 (payment : Dict) (price unit : Text) (now : DateTime)
    (commit : Bool) (providerPubkey requestId : Option Text) :
    Prog SpentSig PyExc RedeemResult := do
  match x402Nonce payment with
  | none => return refused "x402" "0" "invalid_payment"
  | some nonce =>
      if !(← Prog.ofExcept (verifyX402Payment P payment price unit now
          providerPubkey requestId)) then
        return refused "x402" "0" "insufficient"
      let spentKey := x402SpendKey nonce
      if ← isSpent spentKey then
        return refused "x402" "0" "double_spend"
      if commit then
        if !(← spend spentKey) then
          return refused "x402" "0" "double_spend"
      let amount ← Prog.ofExcept (x402Amount P payment price)
      return ⟨true, "x402", amount, ""⟩

def redeemPayment (payment : Dict) (price unit : Text)
    (issuerPubkeys : List Text) (now : DateTime) (commit : Bool)
    (providerPubkey requestId : Option Text) :
    Prog SpentSig PyExc RedeemResult := do
  let scheme := payment.get "scheme"
  if scheme.isStr "pic" then
    redeemPic P payment price unit issuerPubkeys now commit
  else if scheme.isStr "x402" then
    redeemX402 P payment price unit now commit providerPubkey requestId
  else
    let scheme ← Prog.ofExcept (scheme.toStr P.isPrintable)
    return refused scheme "0" "unsupported_scheme"

end

end SovereignInference.SipPic
