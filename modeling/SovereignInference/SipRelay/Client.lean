import SovereignInference.SipProtocol.SignatureTable
import SovereignInference.SipProtocol.Artifacts

/-!
# Requests through an untrusted relay

The client posts the target and the completion to a relay and checks the
receipt of the answer: its signature, the hash of the content and the hash of
the request.  It does not check whose key made the signature, so a verified
answer comes from the target only if no other key signed for the exchange.
-/

namespace SovereignInference.SipRelay

open Python Effects SipProtocol

/-- What the client reads of an HTTP response. -/
structure RelayResponse where
  statusCode : Int
  contentType : Text
  json : Except PyExc Json

structure RelayResult where
  content : Text
  receipt : Dict
  statusCode : Int
  verified : Bool

section

variable (P : Platform)

/-- `payload["choices"][0]["message"]["content"]`, if every step is there. -/
def contentValue (payload : Dict) : Option Json := do
  let choices ← (payload.find "choices").bind Json.asList
  let first ← choices.head?.bind Json.asDict
  let message ← (first.find "message").bind Json.asDict
  message.find "content"

/-- `_content_of`: lookups that fail make an empty string. -/
def contentOf (payload : Dict) : Except PyExc Text :=
  match contentValue payload with
  | some content => content.toStr P.isPrintable
  | none => .ok []

/-- The body of the response, or an empty dict if it is not a JSON object. -/
def payloadOf (response : RelayResponse) : Except PyExc Dict :=
  if startsWith response.contentType "application/json" then do
    return (← response.json).asDict.getD []
  else .ok []

def relayRequest (target completion : Dict) : Dict :=
  [("target", .obj target), ("completion", .obj completion)]

/-- The three checks of a receipt against the content and the request. -/
def receiptVerified (receipt : Dict) (content : Text) (completion : Dict) :
    Except PyExc Bool := do
  let signatureOk := (← verifyReceipt P receipt).valid
  let responseOk :=
    (receipt.get "response_hash").isStr (← hashResponseBody content)
  let expectedRequest ← hashRequest
    ((completion.find "model").getD (.str []))
    ((completion.find "messages").getD (.arr []))
  let requestOk := (receipt.get "request_hash").isStr expectedRequest
  return signatureOk && responseOk && requestOk

/-- An empty receipt is not checked. -/
def checkReceipt (verifyReceipts : Bool) (receipt : Dict) (content : Text)
    (completion : Dict) : Except PyExc Bool :=
  if verifyReceipts && !receipt.isEmpty then
    receiptVerified P receipt content completion
  else .ok false

/-- `relay_chat` against a relay that answers as the function says. -/
def relayChat (relay : Dict → Except PyExc RelayResponse)
    (target completion : Dict) (verifyReceipts : Bool) :
    Except PyExc RelayResult := do
  let response ← relay (relayRequest target completion)
  let payload ← payloadOf response
  let content ← contentOf P payload
  let receipt := (payload.get "sip_receipt").asDict.getD []
  let verified ← checkReceipt P verifyReceipts receipt content completion
  return ⟨content, receipt, response.statusCode, verified⟩

end

variable {P : Platform} {target completion receipt payload : Dict}
  {content key : Text} {relay : Dict → Except PyExc RelayResponse}
  {verifyReceipts : Bool}

/-- A receipt that the key signed for the content and the request. -/
structure SignedFor (P : Platform) (completion receipt : Dict)
    (content key : Text) : Prop where
  schema : P.schemaErrors Schemas.receipt (.obj receipt) = []
  named : receipt.get "provider_pubkey" = .str key
  signed : ∃ signature message,
    receipt.get signatureField = .str signature ∧
      signingBytes receipt = .ok message ∧
        verify P key message signature = true
  response : ∃ hash, hashResponseBody content = .ok hash ∧
    receipt.get "response_hash" = .str hash
  request : ∃ hash,
    hashRequest ((completion.find "model").getD (.str []))
        ((completion.find "messages").getD (.arr [])) = .ok hash ∧
      receipt.get "request_hash" = .str hash

private theorem verifyReceipt_valid {result : VerificationResult}
    (verified : verifyReceipt P receipt = .ok result) :
    result.valid = true ↔
      P.schemaErrors Schemas.receipt (.obj receipt) = [] ∧
        ∃ key, receipt.get "provider_pubkey" = .str key ∧
          ∃ signature message,
            receipt.get signatureField = .str signature ∧
              signingBytes receipt = .ok message ∧
                verify P key message signature = true := by
  rw [verifySigned_valid verified]
  refine and_congr_right fun _ => ?_
  constructor
  · intro document
    obtain ⟨key, signature, message, named, signed, bytes, verifies⟩ :=
      verifyDocument_true document
    exact ⟨key, named, signature, message, signed, bytes, verifies⟩
  · intro parts
    obtain ⟨key, named, signature, message, signed, bytes, verifies⟩ := parts
    simp [verifyDocument, named, signed, bytes, verifies]

theorem receiptVerified_true :
    receiptVerified P receipt content completion = .ok true ↔
      ∃ key, SignedFor P completion receipt content key := by
  unfold receiptVerified
  constructor
  · intro accepted
    obtain ⟨result, verified, accepted⟩ := bind_eq_ok.mp accepted
    obtain ⟨responseHash, hashed, accepted⟩ := bind_eq_ok.mp accepted
    obtain ⟨requestHash, requested, accepted⟩ := bind_eq_ok.mp accepted
    simp only [pure_eq_ok, Except.ok.injEq, Bool.and_eq_true] at accepted
    obtain ⟨⟨valid, sameResponse⟩, sameRequest⟩ := accepted
    obtain ⟨schema, key, named, signed⟩ :=
      (verifyReceipt_valid verified).mp valid
    exact ⟨key, schema, named, signed,
      ⟨responseHash, hashed, Json.isStr_iff.mp sameResponse⟩,
      ⟨requestHash, requested, Json.isStr_iff.mp sameRequest⟩⟩
  · intro someKey
    obtain ⟨key, signedFor⟩ := someKey
    obtain ⟨responseHash, hashed, sameResponse⟩ := signedFor.response
    obtain ⟨requestHash, requested, sameRequest⟩ := signedFor.request
    obtain ⟨signature, message, signed, bytes, verifies⟩ := signedFor.signed
    have document : verifyDocument P receipt "provider_pubkey" = .ok true := by
      simp [verifyDocument, signedFor.named, signed, bytes, verifies]
    obtain ⟨result, verified⟩ : ∃ result,
        verifyReceipt P receipt = .ok result := by
      unfold verifyReceipt verifySigned
      rw [document]
      exact ⟨_, rfl⟩
    have valid : result.valid = true :=
      (verifySigned_valid verified).mpr ⟨signedFor.schema, document⟩
    simp [verified, valid, hashed, sameResponse, requested, sameRequest,
      Json.isStr]

/-- The key is the one in the manifest of the target. -/
def IsTargetKey (target : Dict) (key : Text) : Prop :=
  ∃ manifest : Dict, target.get "manifest" = .obj manifest ∧
    Dict.get manifest "provider_pubkey" = .str key

/-- Whatever comes back as verified was signed by the target for the content
and the request. -/
def SoundFor (P : Platform) (relay : Dict → Except PyExc RelayResponse)
    (target completion : Dict) (verifyReceipts : Bool) : Prop :=
  ∀ result, relayChat P relay target completion verifyReceipts = .ok result →
    result.verified = true →
      ∃ key, IsTargetKey target key ∧
        SignedFor P completion result.receipt result.content key

/-- The relay answers with a receipt over the exchange made by the key. -/
def AnswersWith (P : Platform) (relay : Dict → Except PyExc RelayResponse)
    (target completion : Dict) (key : Text) : Prop :=
  ∃ response payload content receipt,
    relay (relayRequest target completion) = .ok response ∧
      payloadOf response = .ok payload ∧ contentOf P payload = .ok content ∧
        payload.get "sip_receipt" = .obj receipt ∧
          SignedFor P completion receipt content key

theorem SignedFor.nonempty
    (signedFor : SignedFor P completion receipt content key) :
    receipt ≠ [] := by
  rintro rfl
  cases signedFor.named

private theorem relayChat_verified {result : RelayResult}
    (returned : relayChat P relay target completion verifyReceipts =
      .ok result) (verified : result.verified = true) :
    verifyReceipts = true ∧ ∃ response payload,
      relay (relayRequest target completion) = .ok response ∧
        payloadOf response = .ok payload ∧
          contentOf P payload = .ok result.content ∧
            payload.get "sip_receipt" = .obj result.receipt ∧
              ∃ key, SignedFor P completion result.receipt result.content
                key := by
  unfold relayChat at returned
  obtain ⟨response, answered, returned⟩ := bind_eq_ok.mp returned
  obtain ⟨payload, read, returned⟩ := bind_eq_ok.mp returned
  obtain ⟨content, extracted, returned⟩ := bind_eq_ok.mp returned
  obtain ⟨accepted, checked, returned⟩ := bind_eq_ok.mp returned
  cases returned
  obtain rfl : accepted = true := verified
  unfold checkReceipt at checked
  split_ifs at checked with considered
  · rw [Bool.and_eq_true] at considered
    refine ⟨considered.1, response, payload, answered, read, extracted, ?_,
      receiptVerified_true.mp checked⟩
    cases isDict : (payload.get "sip_receipt").asDict with
    | none => simp [isDict] at considered
    | some receipt => exact Json.asDict_eq_some.mp isDict
  · cases checked

/-- **Whose answers come back as verified.** -/
theorem relay_chat_sound_iff :
    SoundFor P relay target completion verifyReceipts ↔
      (verifyReceipts = true →
        ∀ key, AnswersWith P relay target completion key →
          IsTargetKey target key) := by
  constructor
  · intro sound verifies key answers
    obtain ⟨response, payload, content, receipt, answered, read, extracted,
      carried, signedFor⟩ := answers
    have accepted : checkReceipt P verifyReceipts receipt content completion =
        .ok true := by
      simp [checkReceipt, verifies, signedFor.nonempty,
        receiptVerified_true.mpr ⟨key, signedFor⟩]
    have returned : relayChat P relay target completion verifyReceipts =
        .ok ⟨content, receipt, response.statusCode, true⟩ := by
      simp [relayChat, answered, read, extracted, carried, Json.asDict,
        accepted]
    obtain ⟨other, isTarget, signedByOther⟩ := sound _ returned rfl
    have sameKey := signedByOther.named
    dsimp only at sameKey
    rw [signedFor.named, Json.str.injEq] at sameKey
    exact sameKey ▸ isTarget
  · intro onlyTarget result returned verified
    obtain ⟨verifies, response, payload, answered, read, extracted, carried,
      key, signedFor⟩ := relayChat_verified returned verified
    refine ⟨key, onlyTarget verifies key ?_, signedFor⟩
    exact ⟨response, payload, _, _, answered, read, extracted, carried,
      signedFor⟩

def targetKey : Text := "ed25519:gTl3Dqh9F19Wo1Rmw0x-zMuNipG07jeiXfYPW4_Js5Q"

def relayKey : Text := "ed25519:iojj3XQJ8ZX9UtstPLpdcspnCb8dlBIb83SIAbQPb1w"

/-- `{"manifest": {"provider_pubkey": …}}` -/
def sampleTarget : Dict :=
  [("manifest", .obj [("provider_pubkey", .str targetKey)])]

/-- `{"model": "m", "messages": []}` -/
def sampleCompletion : Dict := [("model", .str "m"), ("messages", .arr [])]

def unsignedReceipt : Dict :=
  [("receipt_version", .str "sip-ai.receipt.v1"),
    ("request_id", .str "req-1"), ("provider_pubkey", .str relayKey),
    ("model_manifest_hash", .str
      "sha256:0000000000000000000000000000000000000000000000000000000000000000"),
    ("model_alias", .str "m"), ("runtime", .str "ollama"),
    ("input_tokens", .int 1), ("output_tokens", .int 1),
    ("price_units", .str "pic"), ("price_amount", .str "1"),
    ("privacy_mode", .str "direct"),
    ("started_at", .str "2026-01-01T00:00:00Z"),
    ("completed_at", .str "2026-01-01T00:00:01Z"),
    ("response_hash", .str
      "sha256:4aa009153649a0a7c1425387f3da9c72330ad069ea9f69ce1640abe46f92a83b"),
    ("request_hash", .str
      "sha256:f34244885bc2912271e20676d163d76ed27f7e800f4f1a07a39a95dd44c3c496")]

def relaySignature : Text :=
  "ed25519:M1WAw0W487ke3EwN2XxnqLwnbN7ZMNKUoe6vzil1MdLPTGSyMlggtTg5emlN1bLCDPqBFgBudF3PxLSt3CVtCQ"

/-- The only signature there is was made with the key of the relay. -/
def relayTable : SignatureTable where
  keys := []
  signatures := [(relayKey, unsignedReceipt, relaySignature)]

def alteredPayload : Dict :=
  [("choices", .arr [.obj [("message",
      .obj [("role", .str "assistant"), ("content", .str "altered")])]]),
    ("sip_receipt",
      .obj (unsignedReceipt.set "signature" (.str relaySignature)))]

def alteringRelay (_ : Dict) : Except PyExc RelayResponse :=
  .ok ⟨200, "application/json", .ok (.obj alteredPayload)⟩

/-- What the client makes of the altered answer: its content, whether it is
verified, and the key of the receipt. -/
theorem alteringRelay_returned :
    (relayChat relayTable.platform alteringRelay sampleTarget sampleCompletion
      true).map (fun result => (result.content, result.verified,
        (result.receipt.get "provider_pubkey").asStr)) =
      .ok ("altered", true, some relayKey) := by
  decide +kernel

theorem altered_answer_verified :
    ¬ SoundFor relayTable.platform alteringRelay sampleTarget
      sampleCompletion true := by
  intro sound
  have returned := alteringRelay_returned
  cases answered : relayChat relayTable.platform alteringRelay sampleTarget
      sampleCompletion true with
  | error error =>
      rw [answered] at returned
      cases returned
  | ok result =>
      rw [answered, Except.map, Except.ok.injEq, Prod.mk.injEq,
        Prod.mk.injEq] at returned
      obtain ⟨_, verified, named⟩ := returned
      obtain ⟨key, isTarget, signedFor⟩ := sound result answered verified
      rw [signedFor.named] at named
      obtain ⟨manifest, isManifest, sameKey⟩ := isTarget
      cases isManifest
      cases sameKey
      exact absurd named (by decide)

end SovereignInference.SipRelay
