import SovereignInference.SipProtocol.Signable
import SovereignInference.SipProtocol.SignatureTable

/-!
# When verification returns

Checking a signature writes the document first, so a verification raises on a
document with a key and a signature whose other fields cannot be written.
Manifests and attestations are spared if their schema already refuses them.
-/

namespace SovereignInference.SipProtocol

open Python Effects

variable {P : Platform} {document : Dict}

/-- The verification functions for untrusted documents. -/
inductive Verifier where
  | providerManifest
  | receipt
  | quote
  | voucher
  | attestation
  deriving DecidableEq

namespace Verifier

def schema : Verifier → Schema
  | .providerManifest => Schemas.providerManifest
  | .receipt => Schemas.receipt
  | .quote => Schemas.quote
  | .voucher => Schemas.voucher
  | .attestation => Schemas.attestation

def pubkeyField : Verifier → Text
  | .voucher => "issuer_pubkey"
  | _ => "provider_pubkey"

/-- The truth of what the function returns. -/
def run (P : Platform) (document : Dict) : Verifier → Except PyExc Bool
  | .providerManifest => verifyProviderManifest P document
  | .receipt => do return (← verifyReceipt P document).valid
  | .quote => do return (← verifyQuote P document).valid
  | .voucher => do return (← verifyVoucher P document).valid
  | .attestation => verifyAttestation P document

/-- The function returns before it looks at the signature. -/
def RefusesFirst (P : Platform) (document : Dict) : Verifier → Prop
  | .providerManifest =>
      P.schemaErrors Schemas.providerManifest (.obj document) ≠ []
  | .attestation => P.schemaErrors Schemas.attestation (.obj document) ≠ []
  | _ => False

end Verifier

/-- The document has a key and a signature. -/
def HasSignature (document : Dict) (pubkeyField : Text) : Prop :=
  ∃ publicKey signature, document.get pubkeyField = .str publicKey ∧
    document.get signatureField = .str signature

theorem verifyDocument_isOk (pubkeyField : Text) :
    (∃ verified, verifyDocument P document pubkeyField = .ok verified) ↔
      (HasSignature document pubkeyField →
        (Json.obj (document.without signatureField)).Clean) := by
  rw [← Json.dumpBytes_isOk true]
  unfold verifyDocument
  split
  · rename_i publicKey signature keyEq signatureEq
    have hasSignature : HasSignature document pubkeyField :=
      ⟨publicKey, signature, keyEq, signatureEq⟩
    rw [forall_prop_of_true hasSignature]
    unfold signingBytes canonicalJson
    cases Json.dumpBytes true (.obj (document.without signatureField)) with
    | error error => simp
    | ok bytes => simp
  · rename_i notBoth
    refine iff_of_true ⟨false, rfl⟩ ?_
    intro hasSignature
    obtain ⟨publicKey, signature, keyEq, signatureEq⟩ := hasSignature
    exact (notBoth publicKey signature keyEq signatureEq).elim

theorem verifySigned_returns (schema : Schema) (pubkeyField signer : Text)
    (document : Dict) :
    (∃ result, verifySigned P schema pubkeyField signer document =
      .ok result) ↔ (HasSignature document pubkeyField →
        (Json.obj (document.without signatureField)).Clean) := by
  rw [← @verifyDocument_isOk P document pubkeyField]
  unfold verifySigned
  cases verifyDocument P document pubkeyField with
  | error error => simp
  | ok verified => simp

theorem verifySigned_isOk (schema : Schema) (pubkeyField signer : Text) :
    (∃ truth, (do
        return (← verifySigned P schema pubkeyField signer document).valid :
          Except PyExc Bool) = .ok truth) ↔
      ∃ verified, verifyDocument P document pubkeyField = .ok verified := by
  rw [verifyDocument_isOk, ← verifySigned_returns schema pubkeyField signer]
  cases verifySigned P schema pubkeyField signer document with
  | error error => simp
  | ok result => simp

private theorem verifyFirst_isOk (schema : Schema) (pubkeyField : Text) :
    (∃ truth, (if (iterErrors P schema (.obj document)).isEmpty then
        verifyDocument P document pubkeyField else .ok false) = .ok truth) ↔
      P.schemaErrors schema (.obj document) ≠ [] ∨
        ∃ verified, verifyDocument P document pubkeyField = .ok verified := by
  by_cases noErrors : P.schemaErrors schema (.obj document) = []
  · have empty := (iterErrors_isEmpty schema (.obj document)).mpr noErrors
    rw [if_pos empty]
    simp [noErrors]
  · have errors : ¬ (iterErrors P schema (.obj document)).isEmpty = true :=
      fun empty => noErrors ((iterErrors_isEmpty schema _).mp empty)
    rw [if_neg errors]
    simp [noErrors]

/-- **When verification returns.** -/
theorem verification_returns_iff (verifier : Verifier) (document : Dict) :
    (∃ truth, verifier.run P document = .ok truth) ↔
      verifier.RefusesFirst P document ∨
        (HasSignature document verifier.pubkeyField →
          (Json.obj (document.without signatureField)).Clean) := by
  rw [← @verifyDocument_isOk P document verifier.pubkeyField]
  cases verifier with
  | providerManifest => exact verifyFirst_isOk _ _
  | receipt =>
      exact (verifySigned_isOk _ _ _).trans (iff_of_eq (false_or _)).symm
  | quote =>
      exact (verifySigned_isOk _ _ _).trans (iff_of_eq (false_or _)).symm
  | voucher =>
      exact (verifySigned_isOk _ _ _).trans (iff_of_eq (false_or _)).symm
  | attestation => exact verifyFirst_isOk _ _

/-- A string of the shape of a key. -/
def shapedKey : Text := text "ed25519:" ++ List.replicate 43 0x41

/-- A string of the shape of a signature. -/
def shapedSignature : Text := text "ed25519:" ++ List.replicate 86 0x41

def loneSurrogate : Text := [0xD800]

/-- `{"provider_pubkey": "", "issuer_pubkey": "", "signature": "", "x": NaN}`
and, where the schema is checked first, a document with a lone surrogate. -/
def unwritable : Verifier → Dict
  | .providerManifest =>
      [("schema", .str "sip-ai.provider_manifest.v1"),
        ("provider_pubkey", .str shapedKey),
        ("node_type", .str "relay"), ("models", .arr [.str loneSurrogate]),
        ("runtime_adapters", .arr [.str "ollama"]),
        ("pricing", .obj [("unit", .str "test")]), ("max_context", .int 1),
        ("logging_policy", .str "metadata_only"),
        ("privacy_modes", .arr [.str "direct"]),
        ("published_at", .str ""), ("signature", .str shapedSignature)]
  | .attestation =>
      [("schema", .str "sip-ai.attestation.v1"),
        ("provider_pubkey", .str shapedKey), ("tee_type", .str "none"),
        ("measurement", .str loneSurrogate), ("issued_at", .str ""),
        ("signature", .str shapedSignature)]
  | _ =>
      [("provider_pubkey", .str []), ("issuer_pubkey", .str []),
        ("signature", .str []), ("x", .float (0.0 / 0.0))]

def emptyTable : SignatureTable := ⟨[], []⟩

/-- Every one of the verification functions raises on some document. -/
theorem verification_raises :
    Verifier.providerManifest.run emptyTable.platform
        (unwritable .providerManifest) = .error .unicodeEncodeError ∧
      Verifier.receipt.run emptyTable.platform (unwritable .receipt) =
        .error .valueError ∧
      Verifier.quote.run emptyTable.platform (unwritable .quote) =
        .error .valueError ∧
      Verifier.voucher.run emptyTable.platform (unwritable .voucher) =
        .error .valueError ∧
      Verifier.attestation.run emptyTable.platform (unwritable .attestation) =
        .error .unicodeEncodeError := by
  decide +kernel

end SovereignInference.SipProtocol
