import SovereignInference.SipProtocol.RoundTrip

/-!
# Which built documents satisfy their schemas

The builders put in the fields that the schemas ask for, so a signed receipt or
quote is valid if the values it was built from are.
-/

namespace SovereignInference.SipProtocol

open Python Effects

variable {P : Platform} {keypair : KeyPair} {document signed : Dict}

def privacyModes : List Text :=
  ["local-only", "direct", "relay", "private-payment",
    "private-payment-relay", "confidential", "batch"]

def runtimes : List Text :=
  ["llama.cpp", "ollama", "vllm", "sglang", "localai", "lmstudio", "ramalama"]

def unitNames : List Text := ["pic", "usdc", "x402", "test"]

/-- From one to 256 characters. -/
def IsName (s : Text) : Prop := 1 ≤ s.length ∧ s.length ≤ 256

theorem name_valid_iff {s : Text} :
    Schemas.name.valid (.str s) = true ↔ IsName s := by
  have checks : Schemas.name.valid (.str s) =
      (decide (1 ≤ s.length) && decide (s.length ≤ 256)) := by
    rw [← Bool.and_true (decide (s.length ≤ 256))]
    rfl
  rw [checks, Bool.and_eq_true, decide_eq_true_iff, decide_eq_true_iff]
  rfl

theorem enum_valid_iff {values : List Text} {s : Text} :
    (Schema.string [.enum values]).valid (.str s) = true ↔ s ∈ values := by
  have checks : (Schema.string [.enum values]).valid (.str s) =
      values.any fun value => (Json.str s).isStr value := by
    rw [← Bool.and_true (values.any _)]
    rfl
  rw [checks, List.any_eq_true]
  simp [Json.isStr_iff]

theorem integerFrom_valid_iff {bound value : Int} :
    (Schemas.integerFrom bound).valid (.int value) = true ↔
      bound ≤ value := by
  simp [Schemas.integerFrom, Schema.valid, Schema.allValid, TypeName.holds,
    Schema.atLeast]

theorem publicKeyStr_valid (signs : P.SignsFor keypair) :
    Schemas.publicKey.valid (.str (keypair.publicKeyStr P)) = true := by
  have low : 43 ≤ (4 * (P.publicKey keypair.privateKey).length + 2) / 3 := by
    rw [signs.keyLength]
  have high : (4 * (P.publicKey keypair.privateKey).length + 2) / 3 ≤ 46 := by
    rw [signs.keyLength]
    decide
  exact encodePrefixed_valid low high

theorem sign_valid (signs : P.SignsFor keypair) (message : Bytes) :
    Schemas.signature.valid (.str (keypair.sign P message)) = true := by
  have low : 86 ≤ (4 * (P.sign keypair.privateKey message).length + 2) / 3 := by
    rw [signs.signatureLength]
  have high : (4 * (P.sign keypair.privateKey message).length + 2) / 3 ≤ 88 := by
    rw [signs.signatureLength]
    decide
  exact encodePrefixed_valid low high

/-- A document without a signature gets one at its end. -/
theorem signDocument_append (unsigned : signatureField ∉ document.map (·.1))
    (done : signDocument P document keypair = .ok signed) :
    ∃ message, signed =
      document ++ [(signatureField, .str (keypair.sign P message))] := by
  obtain ⟨message, _, rfl⟩ := signDocument_eq done
  have same : document.without signatureField = document := by
    rw [Dict.without, List.filter_eq_self]
    intro field member
    rw [decide_eq_true_iff]
    intro isSignature
    apply unsigned
    rw [← isSignature]
    exact List.mem_map_of_mem member
  have absent : document.any (·.1 = signatureField) = false := by
    rw [List.any_eq_false]
    intro field member isSignature
    apply unsigned
    rw [← of_decide_eq_true isSignature]
    exact List.mem_map_of_mem member
  refine ⟨message, ?_⟩
  rw [same, Dict.set, absent, if_neg (by decide)]

/-- A signed document that names its signer is valid if its schema says so. -/
theorem verifySigned_signed (sound : P.SchemaSound) (signs : P.SignsFor keypair)
    {schema : Schema} {pubkeyField signer : Text}
    (done : signDocument P document keypair = .ok signed)
    (names : signed.get pubkeyField = .str (keypair.publicKeyStr P)) :
    ∃ verification,
      verifySigned P schema pubkeyField signer signed = .ok verification ∧
      (verification.valid = true ↔ schema.valid (.obj signed) = true) := by
  have verifies := signDocument_verifies signs done names
  obtain ⟨verification, verified⟩ : ∃ verification,
      verifySigned P schema pubkeyField signer signed = .ok verification := by
    unfold verifySigned
    rw [verifies]
    exact ⟨_, rfl⟩
  have valid := verifySigned_valid verified
  rw [sound, and_iff_left verifies] at valid
  exact ⟨verification, verified, valid⟩

/-- The values of a receipt that the schema restricts. -/
@[mk_iff]
structure ReceiptFields.Legal (fields : ReceiptFields) : Prop where
  requestId : IsName fields.requestId
  providerPubkey : Schemas.publicKey.valid (.str fields.providerPubkey) = true
  modelManifestHash : Schemas.sha256.valid (.str fields.modelManifestHash) = true
  modelAlias : IsName fields.modelAlias
  runtime : fields.runtime ∈ runtimes
  inputTokens : 0 ≤ fields.inputTokens
  outputTokens : 0 ≤ fields.outputTokens
  priceUnits : fields.priceUnits ∈ unitNames
  priceAmount : Schemas.amount.valid (.str fields.priceAmount) = true
  privacyMode : fields.privacyMode ∈ privacyModes
  responseHash : Schemas.sha256.valid (.str fields.responseHash) = true
  requestHash : Schemas.sha256.valid (.str fields.requestHash) = true

def receiptKeys : List Text :=
  ["receipt_version", "request_id", "provider_pubkey", "model_manifest_hash",
    "model_alias", "runtime", "input_tokens", "output_tokens", "price_units",
    "price_amount", "privacy_mode", "started_at", "completed_at",
    "response_hash", "request_hash", "signature"]

theorem receipt_valid_iff {fields : ReceiptFields} {signature : Text}
    (built : buildReceipt P fields = .ok document)
    (signatureValid : Schemas.signature.valid (.str signature) = true) :
    Schemas.receipt.valid
        (.obj (document ++ [(signatureField, .str signature)])) = true ↔
      fields.Legal := by
  obtain ⟨startedAt, _, built⟩ := bind_eq_ok.mp built
  obtain ⟨completedAt, _, built⟩ := bind_eq_ok.mp built
  cases built
  rw [ReceiptFields.legal_iff]
  unfold Schemas.receipt
  rw [Schema.record_valid_lookup, and_iff_right]
  rotate_left
  · change ∀ key ∈ (_ : List Text), key ∈ receiptKeys
    decide
  · change receiptKeys.Nodup
    decide
  · simp only [List.map_cons, List.map_nil]
    decide
  simp only [List.cons_append, List.nil_append, List.forall_mem_cons]
  constructor
  · rintro ⟨-, requestId, providerPubkey, manifestHash, modelAlias, runtime,
      inputTokens, outputTokens, priceUnits, priceAmount, privacyMode, -, -,
      responseHash, requestHash, -⟩
    exact ⟨name_valid_iff.mp requestId, providerPubkey, manifestHash,
      name_valid_iff.mp modelAlias, enum_valid_iff.mp runtime,
      integerFrom_valid_iff.mp inputTokens,
      integerFrom_valid_iff.mp outputTokens, enum_valid_iff.mp priceUnits,
      priceAmount, enum_valid_iff.mp privacyMode, responseHash, requestHash⟩
  · rintro ⟨requestId, providerPubkey, manifestHash, modelAlias, runtime,
      inputTokens, outputTokens, priceUnits, priceAmount, privacyMode,
      responseHash, requestHash⟩
    exact ⟨rfl, name_valid_iff.mpr requestId, providerPubkey, manifestHash,
      name_valid_iff.mpr modelAlias, enum_valid_iff.mpr runtime,
      integerFrom_valid_iff.mpr inputTokens,
      integerFrom_valid_iff.mpr outputTokens, enum_valid_iff.mpr priceUnits,
      priceAmount, enum_valid_iff.mpr privacyMode, rfl, rfl, responseHash,
      requestHash, signatureValid, List.forall_mem_nil _⟩

/-- The values of a quote that the schema restricts. -/
@[mk_iff]
structure QuoteFields.Legal (fields : QuoteFields) : Prop where
  requestId : IsName fields.requestId
  providerPubkey : Schemas.publicKey.valid (.str fields.providerPubkey) = true
  modelAlias : IsName fields.modelAlias
  priceUnits : fields.priceUnits ∈ unitNames
  inputPer1m : Schemas.amount.valid (.str fields.inputPer1m) = true
  outputPer1m : Schemas.amount.valid (.str fields.outputPer1m) = true
  maxOutputTokens : 1 ≤ fields.maxOutputTokens
  maxPrice : Schemas.amount.valid (.str fields.maxPrice) = true
  privacyMode : ∀ mode, fields.privacyMode = some mode → mode ∈ privacyModes

def quoteKeys : List Text :=
  ["quote_version", "request_id", "provider_pubkey", "model_alias",
    "price_units", "input_per_1m", "output_per_1m", "max_output_tokens",
    "max_price", "issued_at", "expires_at"]

/-- The fields of every quote. -/
def quoteBase (fields : QuoteFields) (issuedAt expiresAt : Text) : Dict :=
  [("quote_version", .str "sip-ai.quote.v1"),
    ("request_id", .str fields.requestId),
    ("provider_pubkey", .str fields.providerPubkey),
    ("model_alias", .str fields.modelAlias),
    ("price_units", .str fields.priceUnits),
    ("input_per_1m", .str fields.inputPer1m),
    ("output_per_1m", .str fields.outputPer1m),
    ("max_output_tokens", .int fields.maxOutputTokens),
    ("max_price", .str fields.maxPrice),
    ("issued_at", .str issuedAt), ("expires_at", .str expiresAt)]

/-- The field of a privacy mode, if there is one. -/
def modeField : Option Text → Dict
  | none => []
  | some mode => [("privacy_mode", .str mode)]

theorem quote_valid_iff {fields : QuoteFields} {signature : Text}
    (built : buildQuote P fields = .ok document)
    (signatureValid : Schemas.signature.valid (.str signature) = true) :
    Schemas.quote.valid
        (.obj (document ++ [(signatureField, .str signature)])) = true ↔
      fields.Legal := by
  obtain ⟨issuedAt, _, built⟩ := bind_eq_ok.mp built
  obtain ⟨expiresAt, _, built⟩ := bind_eq_ok.mp built
  have split : document = quoteBase fields issuedAt expiresAt ++
      modeField fields.privacyMode := by
    cases mode : fields.privacyMode with
    | none =>
        rw [mode] at built
        cases built
        rfl
    | some mode =>
        simp only [mode] at built
        cases built
        rfl
  rw [QuoteFields.legal_iff]
  unfold Schemas.quote
  rw [split, Schema.record_valid_lookup, and_iff_right]
  rotate_left
  · cases fields.privacyMode with
    | none =>
        change ∀ key ∈ (_ : List Text), key ∈ quoteKeys ++ [signatureField]
        decide
    | some mode =>
        change ∀ key ∈ (_ : List Text),
          key ∈ quoteKeys ++ [text "privacy_mode", signatureField]
        decide
  · cases fields.privacyMode with
    | none =>
        change (quoteKeys ++ [signatureField]).Nodup
        decide
    | some mode =>
        change (quoteKeys ++ [text "privacy_mode", signatureField]).Nodup
        decide
  · simp only [List.map_cons, List.map_nil]
    decide
  rw [List.append_assoc, List.forall_mem_append, List.forall_mem_append]
  simp only [quoteBase, List.forall_mem_cons]
  constructor
  · rintro ⟨⟨-, requestId, providerPubkey, modelAlias, priceUnits, inputPer1m,
      outputPer1m, maxOutputTokens, maxPrice, -⟩, privacyMode, -⟩
    refine ⟨name_valid_iff.mp requestId, providerPubkey,
      name_valid_iff.mp modelAlias, enum_valid_iff.mp priceUnits, inputPer1m,
      outputPer1m, integerFrom_valid_iff.mp maxOutputTokens, maxPrice, ?_⟩
    intro mode isMode
    rw [isMode] at privacyMode
    exact enum_valid_iff.mp (privacyMode _ List.mem_cons_self)
  · rintro ⟨requestId, providerPubkey, modelAlias, priceUnits, inputPer1m,
      outputPer1m, maxOutputTokens, maxPrice, privacyMode⟩
    refine ⟨⟨rfl, name_valid_iff.mpr requestId, providerPubkey,
      name_valid_iff.mpr modelAlias, enum_valid_iff.mpr priceUnits, inputPer1m,
      outputPer1m, integerFrom_valid_iff.mpr maxOutputTokens, maxPrice, rfl,
      rfl, List.forall_mem_nil _⟩, ?_, signatureValid, List.forall_mem_nil _⟩
    intro field member
    cases isMode : fields.privacyMode with
    | none =>
        rw [isMode] at member
        cases member
    | some mode =>
        rw [isMode] at member
        cases List.mem_singleton.mp member
        exact enum_valid_iff.mpr (privacyMode mode isMode)

end SovereignInference.SipProtocol
