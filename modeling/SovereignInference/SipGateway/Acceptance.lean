import SovereignInference.Python.Http
import SovereignInference.SipGateway.Runs
import SovereignInference.SipProtocol.Conformance
import SovereignInference.SipRouter.Answers

/-!
# What a client accepts of a gateway

The gateway signs receipts and quotes with whatever the request and the
configuration put into them, and a client checks them against their schemas.
So a client accepts the answer of an honest gateway exactly if these values
are legal.
-/

namespace SovereignInference.SipGateway

open Python Python.Json Effects SipProtocol SipPic
open SipRouter (ProviderEntry)

variable {P : Platform} {gateway : Gateway} {pricing : Pricing}
  {request : Request} {order : Order} {result : ChatResult} {price : Text}
  {started completed : DateTime} {receipt : Dict} {response : Response}

/-- The body of the response is its content. -/
def Rendered (response : Response) : Prop :=
  dumpBytes false (.obj response.content) = .ok response.body

/-- Whatever the host answers, the program returns only such values. -/
abbrev Always {α : Type} (result : α → Prop) (program : Prog GatewaySig PyExc α) :
    Prop :=
  program.Yields (fun _ _ => True) result

theorem jsonResponse_rendered {content : Dict} {status : Nat}
    (built : jsonResponse content status = .ok response) :
    Rendered response := by
  obtain ⟨body, dumped, same⟩ := bind_eq_ok.mp built
  cases same
  exact dumped

theorem refusal_rendered (refusal : Refusal) :
    Always Rendered (.ofExcept refusal.response) :=
  Prog.yields_ofExcept.mpr fun _ => jsonResponse_rendered

theorem challenge_rendered (price : Text) :
    Always Rendered (.ofExcept (paymentRequiredResponse gateway price)) :=
  Prog.yields_ofExcept.mpr fun _ => jsonResponse_rendered

private theorem serveBy_rendered (required : Option Text) :
    Always Rendered (serve pricing P gateway order required) := by
  unfold serve
  refine Prog.yields_bind fun started => Prog.yields_bind fun answered => ?_
  cases answered with
  | error error => exact refusal_rendered _
  | ok result =>
      refine Prog.yields_bind fun completed => ?_
      have commits : Always (fun challenge : Option Response =>
          ∀ response, challenge = some response → Rendered response)
          (commitPayment P gateway order required) := by
        cases required with
        | none => exact nofun
        | some price =>
            refine Prog.yields_bind fun moment => Prog.yields_bind
              fun committed => ?_
            split_ifs
            · exact Prog.yields_bind fun _ => nofun
            · refine (challenge_rendered price).bind ?_
              rintro response rendered _ ⟨⟩
              exact rendered
      refine commits.bind fun challenge rendered => ?_
      cases challenge with
      | some response => exact rendered response rfl
      | none =>
          refine Prog.yields_ofExcept.mpr fun response answered => ?_
          obtain ⟨price, _, answered⟩ := bind_eq_ok.mp answered
          obtain ⟨receipt, _, built⟩ := bind_eq_ok.mp answered
          exact jsonResponse_rendered built

private theorem handleOrderBy_rendered :
    Always Rendered (handleOrder pricing P gateway order) := by
  have verifies : Always (fun verified : Except Response (Option Text) =>
      ∀ response, verified = .error response → Rendered response)
      (verifyPayment pricing P gateway order) := by
    unfold verifyPayment
    split_ifs
    · exact nofun
    · refine Prog.yields_bind fun required => Prog.yields_bind fun moment =>
        Prog.yields_bind fun check => ?_
      split_ifs
      · exact nofun
      · refine (challenge_rendered required).bind ?_
        rintro response rendered _ ⟨⟩
        exact rendered
  refine verifies.bind fun verified rendered => ?_
  cases verified with
  | error response => exact rendered response rfl
  | ok required => exact serveBy_rendered required

/-- **Every answer is rendered**, whatever the host does. -/
theorem chatCompletions_rendered :
    Always Rendered (chatCompletionsBy pricing P gateway request) := by
  unfold chatCompletionsBy
  refine Prog.yields_bind fun admitted => ?_
  cases admitted with
  | error refusal => exact refusal_rendered refusal
  | ok order =>
      dsimp only
      split_ifs
      · refine Prog.yields_bind fun allowed => ?_
        split_ifs
        · exact refusal_rendered _
        · exact handleOrderBy_rendered
      · exact handleOrderBy_rendered

theorem quote_rendered :
    Always Rendered (quote pricing P gateway request) := by
  unfold quote
  refine Prog.yields_bind fun admitted => ?_
  cases admitted with
  | error refusal => exact refusal_rendered refusal
  | ok order =>
      refine Prog.yields_bind fun issued => ?_
      refine Prog.yields_ofExcept.mpr fun response answered => ?_
      obtain ⟨signed, _, built⟩ := bind_eq_ok.mp answered
      exact jsonResponse_rendered built

/-- The values of a receipt that come from the request, the configuration and
the runtime are legal. -/
structure Receiptable (gateway : Gateway) (order : Order) (result : ChatResult)
    (price : Text) : Prop where
  requestId : IsName order.requestId
  model : IsName order.model
  privacyMode : order.privacyMode ∈ privacyModes
  modelManifestHash :
    Schemas.sha256.valid (.str gateway.modelManifestHash) = true
  adapterName : gateway.adapterName ∈ runtimes
  priceUnits : gateway.priceUnits ∈ unitNames
  inputTokens : 0 ≤ result.inputTokens
  outputTokens : 0 ≤ result.outputTokens
  price : Schemas.amount.valid (.str price) = true

/-- What is known of a receipt that the gateway signed. -/
structure ReceiptMade (P : Platform) (gateway : Gateway) (order : Order)
    (result : ChatResult) (price : Text) (receipt : Dict) : Prop where
  signed : ∃ unsigned, signDocument P unsigned gateway.keypair = .ok receipt
  valid_iff : Schemas.receipt.valid (.obj receipt) = true ↔
    Receiptable gateway order result price
  named : receipt.get "provider_pubkey" = .str (publicKeyStr P gateway)
  bound : ∃ hash, hashResponseBody result.content = .ok hash ∧
    receipt.get "response_hash" = .str hash
  requestId : receipt.get "request_id" = .str order.requestId
  request : ∃ hash,
    hashRequest (.str order.model) (.arr order.messages) = .ok hash ∧
      receipt.get "request_hash" = .str hash
  price : receipt.get "price_amount" = .str price
  inputTokens : receipt.get "input_tokens" = .int result.inputTokens
  outputTokens : receipt.get "output_tokens" = .int result.outputTokens
  distinct : (Json.obj receipt).DistinctKeys
  flat : nesting (.obj receipt) = 1

theorem sha256Prefixed_of_hash {content hash : Text}
    (hashed : hashResponseBody content = .ok hash) :
    Schemas.sha256.valid (.str hash) = true := by
  obtain ⟨bytes, _, same⟩ := bind_eq_ok.mp hashed
  cases same
  exact sha256Prefixed_valid bytes

theorem sha256Prefixed_of_request {model messages : Json} {hash : Text}
    (hashed : hashRequest model messages = .ok hash) :
    Schemas.sha256.valid (.str hash) = true := by
  obtain ⟨bytes, _, same⟩ := bind_eq_ok.mp hashed
  cases same
  exact sha256Prefixed_valid bytes

private theorem receiptFields_legal_iff (signs : P.SignsFor gateway.keypair)
    {responseHash requestHash : Text}
    (response : Schemas.sha256.valid (.str responseHash) = true)
    (request : Schemas.sha256.valid (.str requestHash) = true) :
    (receiptFields P gateway order result price started completed responseHash
      requestHash).Legal ↔ Receiptable gateway order result price := by
  constructor
  · intro legal
    exact ⟨legal.requestId, legal.modelAlias, legal.privacyMode,
      legal.modelManifestHash, legal.runtime, legal.priceUnits,
      legal.inputTokens, legal.outputTokens, legal.priceAmount⟩
  · intro legal
    exact ⟨legal.requestId, publicKeyStr_valid signs, legal.modelManifestHash,
      legal.model, legal.adapterName, legal.inputTokens, legal.outputTokens,
      legal.priceUnits, legal.price, legal.privacyMode, response, request⟩

theorem receiptMade (signs : P.SignsFor gateway.keypair)
    (made : signedReceipt P gateway order result price started completed =
      .ok receipt) : ReceiptMade P gateway order result price receipt := by
  obtain ⟨responseHash, isResponse, made⟩ := bind_eq_ok.mp made
  obtain ⟨requestHash, isRequest, made⟩ := bind_eq_ok.mp made
  obtain ⟨unsigned, built, signed⟩ := bind_eq_ok.mp made
  have form := built
  obtain ⟨startedAt, _, form⟩ := bind_eq_ok.mp form
  obtain ⟨completedAt, _, form⟩ := bind_eq_ok.mp form
  cases form
  obtain ⟨message, rfl⟩ := signDocument_append (by
    simp only [List.map_cons, List.map_nil]
    decide) signed
  have legal := @receiptFields_legal_iff P gateway order result price started
    completed signs _ _ (sha256Prefixed_of_hash isResponse)
      (sha256Prefixed_of_request isRequest)
  refine ⟨⟨_, signed⟩, ?_, rfl, ⟨responseHash, isResponse, rfl⟩, rfl,
    ⟨requestHash, isRequest, rfl⟩, rfl, rfl, rfl, ?_, rfl⟩
  · rw [← legal]
    exact receipt_valid_iff built (sign_valid signs message)
  · refine .obj _ (by simp only [List.map_cons, List.map_nil,
      List.cons_append, List.nil_append]; decide) ?_
    simp [DistinctKeys.str, DistinctKeys.int]

/-- **A receipt of the gateway is trusted** exactly if its values are legal. -/
theorem ReceiptMade.trusted {candidate : ProviderEntry}
    (made : ReceiptMade P gateway order result price receipt)
    (sound : P.SchemaSound) (signs : P.SignsFor gateway.keypair)
    (listed : candidate.manifest.get "provider_pubkey" =
      .str (publicKeyStr P gateway)) :
    ∃ trusted, SipRouter.receiptTrusted P (.obj receipt) candidate
        result.content = .ok trusted ∧
      (trusted = true ↔ Receiptable gateway order result price) := by
  obtain ⟨unsigned, signed⟩ := made.signed
  obtain ⟨hash, hashed, bound⟩ := made.bound
  obtain ⟨verification, verified, valid⟩ := @verifySigned_signed P _ _ _ sound
    signs Schemas.receipt "provider_pubkey" "provider" signed made.named
  rw [made.valid_iff] at valid
  refine ⟨verification.valid, ?_, valid⟩
  unfold SipRouter.receiptTrusted verifyReceipt
  simp only [Json.asDict, verified, ok_bind, made.named, listed, bound, hashed]
  cases verification.valid with
  | false => rfl
  | true => simp [Json.pyEq, Json.isStr]

/-- The values of a quote that come from the request and the configuration are
legal. -/
structure Quotable (gateway : Gateway) (order : QuoteOrder) (maxPrice : Text) :
    Prop where
  requestId : IsName order.requestId
  model : IsName order.model
  privacyMode : ∀ mode, order.privacyMode = some mode → mode ∈ privacyModes
  priceUnits : gateway.priceUnits ∈ unitNames
  inputPer1m : Schemas.amount.valid (.str gateway.inputPer1m) = true
  outputPer1m : Schemas.amount.valid (.str gateway.outputPer1m) = true
  maxOutputTokens : 1 ≤ order.maxOutputTokens
  maxPrice : Schemas.amount.valid (.str maxPrice) = true

/-- What is known of a quote that the gateway signed. -/
structure QuoteMade (P : Platform) (gateway : Gateway) (order : QuoteOrder)
    (maxPrice : Text) (quote : Dict) : Prop where
  signed : ∃ unsigned, signDocument P unsigned gateway.keypair = .ok quote
  valid_iff : Schemas.quote.valid (.obj quote) = true ↔
    Quotable gateway order maxPrice
  named : quote.get "provider_pubkey" = .str (publicKeyStr P gateway)
  distinct : (Json.obj quote).DistinctKeys
  flat : nesting (.obj quote) = 1

private theorem quoteFields_legal_iff (signs : P.SignsFor gateway.keypair)
    {order : QuoteOrder} {maxPrice : Text} {issued expires : DateTime} :
    (quoteFields P gateway order maxPrice issued expires).Legal ↔
      Quotable gateway order maxPrice := by
  constructor
  · intro legal
    exact ⟨legal.requestId, legal.modelAlias, legal.privacyMode,
      legal.priceUnits, legal.inputPer1m, legal.outputPer1m,
      legal.maxOutputTokens, legal.maxPrice⟩
  · intro legal
    exact ⟨legal.requestId, publicKeyStr_valid signs, legal.model,
      legal.priceUnits, legal.inputPer1m, legal.outputPer1m,
      legal.maxOutputTokens, legal.maxPrice, legal.privacyMode⟩

theorem quoteMade (signs : P.SignsFor gateway.keypair) {order : QuoteOrder}
    {issued : DateTime} {quote : Dict}
    (made : signedQuote pricing P gateway order issued = .ok quote) :
    ∃ maxPrice, pricing gateway.maxInputChars order.maxOutputTokens =
        .ok maxPrice ∧ QuoteMade P gateway order maxPrice quote := by
  obtain ⟨maxPrice, priced, made⟩ := bind_eq_ok.mp made
  obtain ⟨expires, _, made⟩ := bind_eq_ok.mp made
  obtain ⟨unsigned, built, signed⟩ := bind_eq_ok.mp made
  have legal := @quoteFields_legal_iff P gateway signs order maxPrice issued
    expires
  have form := built
  obtain ⟨issuedAt, _, form⟩ := bind_eq_ok.mp form
  obtain ⟨expiresAt, _, form⟩ := bind_eq_ok.mp form
  refine ⟨maxPrice, priced, ?_⟩
  have split : unsigned = quoteBase (quoteFields P gateway order maxPrice
      issued expires) issuedAt expiresAt ++ modeField order.privacyMode := by
    unfold quoteFields at form
    dsimp only at form
    cases mode : order.privacyMode with
    | none =>
        rw [mode] at form
        cases form
        rfl
    | some mode =>
        rw [mode] at form
        cases form
        rfl
  obtain ⟨message, rfl⟩ := signDocument_append (by
    rw [split]
    cases order.privacyMode with
    | none =>
        simp only [quoteBase, modeField, List.map_append, List.map_cons,
          List.map_nil]
        decide
    | some mode =>
        simp only [quoteBase, modeField, List.map_append, List.map_cons,
          List.map_nil]
        decide) signed
  have valid := quote_valid_iff built (sign_valid signs message)
  rw [legal] at valid
  rw [split] at valid signed ⊢
  refine ⟨⟨_, signed⟩, valid, rfl, ?_, ?_⟩
  · cases order.privacyMode with
    | none =>
        refine .obj _ ?_ ?_
        · change (quoteKeys ++ [signatureField]).Nodup
          decide
        · simp [quoteBase, modeField, DistinctKeys.str, DistinctKeys.int]
    | some mode =>
        refine .obj _ ?_ ?_
        · change (quoteKeys ++ [text "privacy_mode", signatureField]).Nodup
          decide
        · simp [quoteBase, modeField, DistinctKeys.str, DistinctKeys.int]
  · cases order.privacyMode <;> rfl

/-- **A quote of the gateway is read** exactly if its values are legal. -/
theorem QuoteMade.read {order : QuoteOrder} {maxPrice : Text} {quote : Dict}
    (made : QuoteMade P gateway order maxPrice quote)
    (sound : P.SchemaSound) (signs : P.SignsFor gateway.keypair) :
    (Quotable gateway order maxPrice →
      SipRouter.readQuote P (.obj quote) = .ok (some quote)) ∧
    (¬ Quotable gateway order maxPrice →
      SipRouter.readQuote P (.obj quote) = .ok none) := by
  obtain ⟨unsigned, signed⟩ := made.signed
  obtain ⟨verification, verified, valid⟩ := @verifySigned_signed P _ _ _ sound
    signs Schemas.quote "provider_pubkey" "provider" signed made.named
  rw [made.valid_iff] at valid
  unfold SipRouter.readQuote verifyQuote
  simp only [Json.asDict, verified, ok_bind]
  constructor
  · intro legal
    rw [if_pos (valid.mpr legal)]
    rfl
  · intro illegal
    rw [if_neg (mt valid.mp illegal)]
    rfl

end SovereignInference.SipGateway
