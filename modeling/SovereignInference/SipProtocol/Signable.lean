import SovereignInference.SipProtocol.Artifacts
import Mathlib.Tactic.MkIffOfInductiveProp

/-!
# Which documents can be signed

Signing fails only where the canonical JSON does, so a document can be signed
exactly when its fields are clean.  Hashes, keys, signatures and timestamps
are written in ASCII and never stand in the way.
-/

namespace SovereignInference.SipProtocol

open Python Effects

private theorem encodable_hex (bytes : Bytes) : Encodable (hex bytes) := by
  intro c member
  unfold hex at member
  obtain ⟨byte, _, written⟩ := List.mem_flatMap.mp member
  have digit : ∀ value < 16, isSurrogate (hexDigit value) = false := by decide
  have bound := byte.toNat_lt
  simp only [List.mem_cons, List.not_mem_nil, or_false] at written
  rcases written with rfl | rfl
  · exact digit _ (by omega)
  · exact digit _ (by omega)

theorem encodable_hashResponseBytes (body : Bytes) :
    Encodable (hashResponseBytes body) := by
  unfold hashResponseBytes sha256Prefixed
  simp [encodable_hex]

theorem encodable_b64uEncode (bytes : Bytes) : Encodable (b64uEncode bytes) := by
  have char : ∀ value < 64, isSurrogate (base64Char value) = false := by decide
  induction bytes using b64uEncode.induct with
  | case1 => exact encodable_nil
  | case2 a =>
      have bound := a.toNat_lt
      simp only [b64uEncode, encodable_cons, encodable_nil, and_true]
      exact ⟨char _ (by omega), char _ (by omega)⟩
  | case3 a b =>
      have boundA := a.toNat_lt
      have boundB := b.toNat_lt
      simp only [b64uEncode, encodable_cons, encodable_nil, and_true]
      exact ⟨char _ (by omega), char _ (by omega), char _ (by omega)⟩
  | case4 a b c rest induction =>
      have boundA := a.toNat_lt
      have boundB := b.toNat_lt
      have boundC := c.toNat_lt
      simp only [b64uEncode, encodable_cons]
      exact ⟨char _ (by omega), char _ (by omega), char _ (by omega),
        char _ (by omega), induction⟩

@[simp] theorem encodable_encodePrefixed (raw : Bytes) :
    Encodable (encodePrefixed raw) := by
  unfold encodePrefixed ed25519Prefix
  simp [encodable_b64uEncode]

private theorem encodable_pad2 (value : Nat) :
    Encodable (DateTime.pad2 value) :=
  encodable_leftPad 2 (encodable_natText value)

theorem encodable_isoText (utc : Int) : Encodable (DateTime.isoText utc) := by
  unfold DateTime.isoText
  simp [encodable_natText, encodable_pad2, isSurrogate]

theorem hashResponseBody_isOk (body : Text) :
    (∃ hash, hashResponseBody body = .ok hash) ↔ Encodable body := by
  rw [← encodeUtf8_isOk]
  unfold hashResponseBody
  cases encodeUtf8 body with
  | error error => simp
  | ok bytes => simp

theorem encodable_hashResponseBody {body hash : Text}
    (hashed : hashResponseBody body = .ok hash) : Encodable hash := by
  unfold hashResponseBody at hashed
  obtain ⟨bytes, _, equality⟩ := bind_eq_ok.mp hashed
  cases equality
  exact encodable_hashResponseBytes bytes

theorem hashRequest_isOk (model messages : Json) :
    (∃ hash, hashRequest model messages = .ok hash) ↔
      model.Clean ∧ messages.Clean := by
  have clean : (Json.obj [("model", model), ("messages", messages)]).Clean ↔
      model.Clean ∧ messages.Clean := by
    simp
  rw [← clean, ← Json.dumpBytes_isOk true]
  unfold hashRequest canonicalJson
  cases Json.dumpBytes true (.obj [("model", model), ("messages", messages)]) with
  | error error => simp
  | ok bytes => simp

theorem encodable_hashRequest {model messages : Json} {hash : Text}
    (hashed : hashRequest model messages = .ok hash) : Encodable hash := by
  unfold hashRequest at hashed
  obtain ⟨bytes, _, equality⟩ := bind_eq_ok.mp hashed
  cases equality
  exact encodable_hashResponseBytes bytes

section

variable {P : Platform} {document : Dict} {keypair : KeyPair}

theorem signDocument_isOk :
    (∃ signed, signDocument P document keypair = .ok signed) ↔
      (Json.obj (document.without signatureField)).Clean := by
  have idempotent : (document.without signatureField).without signatureField =
      document.without signatureField := by
    simp [Dict.without]
  rw [← Json.dumpBytes_isOk true]
  unfold signDocument signingBytes canonicalJson
  dsimp only
  rw [idempotent]
  cases Json.dumpBytes true (.obj (document.without signatureField)) with
  | error error => simp
  | ok message => simp

/-- A signed document is clean. -/
theorem signDocument_clean {signed : Dict}
    (done : signDocument P document keypair = .ok signed) :
    (Json.obj signed).Clean := by
  have clean := signDocument_isOk.mp ⟨signed, done⟩
  unfold signDocument at done
  obtain ⟨message, _, equality⟩ := bind_eq_ok.mp done
  cases equality
  rw [Json.clean_obj] at clean ⊢
  intro field member
  have signature : Encodable signatureField ∧
      (Json.str (keypair.sign P message)).Clean := by
    simp [signatureField, KeyPair.sign]
  unfold Dict.set at member
  split at member
  · obtain ⟨other, inside, rfl⟩ := List.mem_map.mp member
    split
    · exact signature
    · exact clean other inside
  · rcases List.mem_append.mp member with inside | last
    · exact clean field inside
    · rw [List.mem_singleton.mp last]
      exact signature

/-- What must be writable in a receipt. -/
@[mk_iff]
structure ReceiptFields.Clean (fields : ReceiptFields) : Prop where
  requestId : Encodable fields.requestId
  providerPubkey : Encodable fields.providerPubkey
  modelManifestHash : Encodable fields.modelManifestHash
  modelAlias : Encodable fields.modelAlias
  runtime : Encodable fields.runtime
  inputTokens : fields.inputTokens.natAbs < 10 ^ maxStrDigits
  outputTokens : fields.outputTokens.natAbs < 10 ^ maxStrDigits
  priceUnits : Encodable fields.priceUnits
  priceAmount : Encodable fields.priceAmount
  privacyMode : Encodable fields.privacyMode
  responseHash : Encodable fields.responseHash
  requestHash : Encodable fields.requestHash

theorem utcIso_isOk (moment : DateTime) :
    (∃ written, utcIso P moment = .ok written) ↔
      ∃ utc, moment.toUtc P.localOffset = .ok utc := by
  unfold utcIso
  cases moment.toUtc P.localOffset with
  | error error => simp
  | ok utc => simp

theorem encodable_utcIso {moment : DateTime} {written : Text}
    (writes : utcIso P moment = .ok written) : Encodable written := by
  unfold utcIso at writes
  obtain ⟨utc, _, equality⟩ := bind_eq_ok.mp writes
  cases equality
  exact encodable_isoText utc

theorem signReceipt_isOk (fields : ReceiptFields) :
    (∃ signed, buildReceipt P fields >>= (signReceipt P · keypair) =
        .ok signed) ↔
      (∃ utc, fields.startedAt.toUtc P.localOffset = .ok utc) ∧
      (∃ utc, fields.completedAt.toUtc P.localOffset = .ok utc) ∧
      fields.Clean := by
  rw [← utcIso_isOk, ← utcIso_isOk]
  unfold buildReceipt
  cases started : utcIso P fields.startedAt with
  | error error => simp
  | ok startedAt =>
      cases completed : utcIso P fields.completedAt with
      | error error => simp
      | ok completedAt =>
          have startedClean := encodable_utcIso started
          have completedClean := encodable_utcIso completed
          simp only [ok_bind, pure_eq_ok, Except.ok.injEq, exists_eq', true_and]
          unfold signReceipt
          rw [signDocument_isOk, Json.clean_obj]
          have unsigned : ∀ fields : Dict,
              (∀ field ∈ fields, field.1 ≠ signatureField) →
                fields.without signatureField = fields := by
            intro fields others
            exact List.filter_eq_self.mpr (by simpa using others)
          rw [unsigned]
          · simp only [List.mem_cons, List.not_mem_nil, or_false,
              forall_eq_or_imp, forall_eq, encodable_text, Json.clean_str,
              Json.clean_int, startedClean, completedClean, true_and,
              ReceiptFields.clean_iff]
          · simp only [List.mem_cons, List.not_mem_nil, or_false,
              forall_eq_or_imp, forall_eq]
            decide

end

end SovereignInference.SipProtocol
