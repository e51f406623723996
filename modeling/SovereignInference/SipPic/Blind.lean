import SovereignInference.SipPic.SpentSet
import SovereignInference.Python.Base64
import SovereignInference.Python.Numeral
import SovereignInference.Python.Sha256

/-!
# Blind-signature credits

Issuer keys, the full-domain hash, verification and redemption of blind
credits.  The signature covers the decoded serial; the spend key is built from
the token string as it was presented.
-/

namespace SovereignInference.SipPic

open Python Effects

def issuerPrefix : Text := "rsa-blind:"

def intToB64u (value : Nat) : Except PyExc Text := do
  let length := max 1 ((bitLength value + 7) / 8)
  return b64uEncode (← toBytesBig length value)

def b64uToInt (s : Text) : Except PyExc Nat := do
  return fromBytesBig (← b64uDecode s)

structure BlindIssuerKey where
  n : Nat
  e : Nat
  deriving DecidableEq

namespace BlindIssuerKey

/-- The largest byte length strictly below `n`. -/
def keyBytes (key : BlindIssuerKey) : Nat := (bitLength key.n - 1) / 8

def pubkeyStr (key : BlindIssuerKey) : Except PyExc Text := do
  return issuerPrefix ++ (← intToB64u key.n) ++ 0x2E :: (← intRepr key.e)

def fromStr (s : Text) : Except PyExc BlindIssuerKey := do
  if !startsWith s issuerPrefix then throw .valueError
  let (nB64, eStr) := partition (s.drop issuerPrefix.length) 0x2E
  let n ← b64uToInt nB64
  let e ← parseInt eStr
  -- degenerate moduli and exponents are refused
  if n < 3 ∨ e < 2 then throw .valueError
  return ⟨n, e.toNat⟩

end BlindIssuerKey

def mgf1Block (seed : Bytes) (counter : Nat) : Except PyExc Bytes := do
  return sha256 (seed ++ (← toBytesBig 4 counter))

/-- `_mgf1`: every turn of the loop adds the 32 bytes of one digest. -/
def mgf1 (seed : Bytes) (length : Nat) : Except PyExc Bytes := do
  let blocks ← (List.range ((length + 31) / 32)).mapM (mgf1Block seed)
  return blocks.flatten.take length

def denominationBytes (amount unit : Text) : Except PyExc Bytes := do
  let a ← encodeUtf8 amount
  let u ← encodeUtf8 unit
  return (← toBytesBig 4 a.length) ++ a ++ (← toBytesBig 4 u.length) ++ u

/-- `_fdh`: the hash of serial, amount and unit into the residues of `n`. -/
def fdh (token : Bytes) (amount unit : Text) (key : BlindIssuerKey) :
    Except PyExc Nat := do
  let preimage := ascii "sip-blind-fdh-v2:" ++ token ++
    (← denominationBytes amount unit)
  let digest ← mgf1 preimage key.keyBytes
  if key.n = 0 then throw .zeroDivisionError
  return fromBytesBig digest % key.n

def verifyBlindToken (token : Bytes) (amount unit : Text) (sig : Nat)
    (key : BlindIssuerKey) : Except PyExc Bool := do
  if key.n = 0 then throw .valueError
  return sig ^ key.e % key.n == (← fdh token amount unit key)

structure BlindCredit where
  unit : Text
  amount : Text
  issuer : Text
  token : Text
  signature : Text
  deriving DecidableEq

/-- The fields of a credit as `verify_blind_credit` reads them. -/
def decodeCredit (credit : BlindCredit) :
    Except PyExc (BlindIssuerKey × Bytes × Nat) := do
  let key ← BlindIssuerKey.fromStr credit.issuer
  let token ← b64uDecode credit.token
  let sig ← b64uToInt credit.signature
  return (key, token, sig)

def verifyBlindCredit (credit : BlindCredit) : Except PyExc Bool :=
  match decodeCredit credit with
  | .ok (key, token, sig) =>
      verifyBlindToken token credit.amount credit.unit sig key
  | .error error =>
      if error.isValueError ∨ error = .typeError then .ok false
      else .error error

def BlindCredit.spendKey (credit : BlindCredit) : Text :=
  "blind:" ++ credit.issuer ++ 0x3A :: credit.token

def blindRefused (reason : Text) : RedeemResult := ⟨false, "blind", "0", reason⟩

def redeemBlindCredit (credit : BlindCredit) (price unit : Text)
    (issuerKeys : List Text) : Prog SpentSig PyExc RedeemResult := do
  if credit.issuer ∉ issuerKeys then
    return blindRefused "unknown_issuer"
  let verified ← .ofExcept (verifyBlindCredit credit)
  if !verified then
    return blindRefused "bad_signature"
  if credit.unit ≠ unit ∨ credit.amount ≠ price then
    return blindRefused "amount_mismatch"
  if ← isSpent credit.spendKey then
    return blindRefused "double_spend"
  let _ ← spend credit.spendKey
  return ⟨true, "blind", credit.amount, ""⟩

end SovereignInference.SipPic
