import SovereignInference.SipProtocol.Schemas
import SovereignInference.Python.Base64
import SovereignInference.Python.DateTime
import SovereignInference.Python.Decimal
import SovereignInference.Python.JsonEncoding
import SovereignInference.Python.Sha256

/-!
# Canonical JSON, keys and detached signatures

The signature of a document covers the canonical bytes of its other fields.
Signature primitives, schema validation and the tables of the machine are
parameters, collected in a `Platform`.
-/

namespace SovereignInference.SipProtocol

open Python Effects

/-- What the packages and the machine provide: Ed25519 on raw keys, the
messages of the schema validator, which characters print, the offset of naive
times, and the precision of decimal sums. -/
structure Platform where
  publicKey : Bytes → Bytes
  sign : (privateKey message : Bytes) → Bytes
  verifySignature : (publicKey message signature : Bytes) → Bool
  schemaErrors : Schema → Json → List Text
  isPrintable : CodePoint → Bool
  localOffset : Int → Except PyExc Int
  precision : Precision

/-- The validator reports nothing exactly on the valid documents. -/
def Platform.SchemaSound (P : Platform) : Prop :=
  ∀ schema document, P.schemaErrors schema document = [] ↔
    schema.valid document

def canonicalJson (value : Json) : Except PyExc Bytes :=
  value.dumpBytes true

def sha256Prefixed (data : Bytes) : Text := "sha256:" ++ hex (sha256 data)

def hashResponseBytes (body : Bytes) : Text := sha256Prefixed body

/-- `hash_response_body` of a string. -/
def hashResponseBody (body : Text) : Except PyExc Text := do
  return hashResponseBytes (← encodeUtf8 body)

def hashRequest (model messages : Json) : Except PyExc Text := do
  return sha256Prefixed (← canonicalJson
    (.obj [("model", model), ("messages", messages)]))

def ed25519Prefix : Text := "ed25519:"

def encodePrefixed (raw : Bytes) : Text := ed25519Prefix ++ b64uEncode raw

/-- `decode_public_key` and `decode_signature`: the raw bytes, of the given
length. -/
def decodePrefixed (length : Nat) (encoded : Text) : Except PyExc Bytes := do
  if !startsWith encoded ed25519Prefix then throw .keyEncodingError
  match b64uDecode (encoded.drop ed25519Prefix.length) with
  | .error _ => throw .keyEncodingError
  | .ok raw => if raw.length = length then return raw else throw .keyEncodingError

def decodePublicKey (encoded : Text) : Except PyExc Bytes :=
  decodePrefixed 32 encoded

def decodeSignature (encoded : Text) : Except PyExc Bytes :=
  decodePrefixed 64 encoded

structure KeyPair where
  privateKey : Bytes

section

variable (P : Platform)

def KeyPair.publicKeyStr (keypair : KeyPair) : Text :=
  encodePrefixed (P.publicKey keypair.privateKey)

def KeyPair.sign (keypair : KeyPair) (message : Bytes) : Text :=
  encodePrefixed (P.sign keypair.privateKey message)

def verify (publicKey : Text) (message : Bytes) (signature : Text) : Bool :=
  match decodePublicKey publicKey, decodeSignature signature with
  | .ok raw, .ok rawSignature => P.verifySignature raw message rawSignature
  | _, _ => false

def signatureField : Text := "signature"

def signingBytes (document : Dict) : Except PyExc Bytes :=
  canonicalJson (.obj (document.without signatureField))

def signDocument (document : Dict) (keypair : KeyPair) :
    Except PyExc Dict := do
  let signed := document.without signatureField
  let message ← signingBytes signed
  return signed.set signatureField (.str (keypair.sign P message))

def verifyDocument (document : Dict) (pubkeyField : Text) :
    Except PyExc Bool :=
  match document.get pubkeyField, document.get signatureField with
  | .str publicKey, .str signature => do
      let message ← signingBytes document
      return verify P publicKey message signature
  | _, _ => .ok false

/-- Messages in the order of strings. -/
def sortTexts (messages : List Text) : List Text :=
  messages.insertionSort fun a b => ¬ b < a

def iterErrors (schema : Schema) (document : Json) : List Text :=
  sortTexts (P.schemaErrors schema document)

structure VerificationResult where
  valid : Bool
  schemaOk : Bool
  signatureOk : Bool
  errors : List Text
  deriving DecidableEq

/-- Validate a document against its schema and verify the signature under the
key it carries.  `signer` is the party named in the message of a failure. -/
def verifySigned (schema : Schema) (pubkeyField signer : Text)
    (document : Dict) : Except PyExc VerificationResult := do
  let errors := iterErrors P schema (.obj document)
  let schemaOk := errors.isEmpty
  let signatureOk ← verifyDocument P document pubkeyField
  let message := text "signature: invalid or missing " ++ signer ++
    text " signature"
  let errors := if signatureOk then errors else errors ++ [message]
  return ⟨schemaOk && signatureOk, schemaOk, signatureOk, errors⟩

variable {P}

theorem iterErrors_isEmpty (schema : Schema) (document : Json) :
    (iterErrors P schema document).isEmpty ↔
      P.schemaErrors schema document = [] := by
  unfold iterErrors sortTexts
  rw [List.isEmpty_iff, ← List.length_eq_zero_iff,
    List.length_insertionSort, List.length_eq_zero_iff]

/-- A verification succeeds with `valid` exactly when the validator reports
nothing and the signature verifies. -/
theorem verifySigned_valid {schema : Schema} {pubkeyField signer : Text}
    {document : Dict} {result : VerificationResult}
    (verified : verifySigned P schema pubkeyField signer document =
      .ok result) :
    result.valid ↔
      P.schemaErrors schema (.obj document) = [] ∧
        verifyDocument P document pubkeyField = .ok true := by
  unfold verifySigned at verified
  cases signature : verifyDocument P document pubkeyField with
  | error error => simp [signature] at verified
  | ok signatureOk =>
      simp only [signature, ok_bind, pure_eq_ok, Except.ok.injEq] at verified
      subst verified
      rw [← iterErrors_isEmpty]
      cases signatureOk <;> simp

/-- The key and the signature of a verified document. -/
theorem verifyDocument_true {document : Dict} {pubkeyField : Text}
    (verified : verifyDocument P document pubkeyField = .ok true) :
    ∃ publicKey signature message,
      document.get pubkeyField = .str publicKey ∧
      document.get signatureField = .str signature ∧
      signingBytes document = .ok message ∧
      verify P publicKey message signature = true := by
  unfold verifyDocument at verified
  split at verified
  · rename_i publicKey signature keyEq signatureEq
    obtain ⟨message, bytes, result⟩ := bind_eq_ok.mp verified
    exact ⟨publicKey, signature, message, keyEq, signatureEq, bytes,
      Except.ok.inj result⟩
  · cases verified

end

end SovereignInference.SipProtocol
