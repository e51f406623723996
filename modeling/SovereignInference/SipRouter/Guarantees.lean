import SovereignInference.SipRouter.Failover

/-!
# What a route result guarantees

A result comes from the first candidate whose attempt succeeded.  Its receipt
verifies, names that candidate and is bound to the content, and a quote that
was asked for was signed by the same key and covers the price of the receipt.
-/

namespace SovereignInference.SipRouter

open Python Effects SipProtocol SipPic

variable {P : Platform} {options : ChatOptions} {candidate : ProviderEntry}
  {receipt : Dict} {content key : Text}

/-- The receipt verifies, names the key and is bound to the content. -/
structure ReceiptGuarantee (P : Platform) (content key : Text)
    (receipt : Dict) : Prop where
  valid : ∃ verification, verifyReceipt P receipt = .ok verification ∧
    verification.valid = true
  named : receipt.get "provider_pubkey" = .str key
  bound : ∃ hash, hashResponseBody content = .ok hash ∧
    receipt.get "response_hash" = .str hash

/-- The quote verifies, names the key, was not expired when it was checked at
last, and is in the units of the receipt and not below its price. -/
structure QuoteGuarantee (P : Platform) (key : Text) (receipt : Dict)
    (trace : List RouterEvent) (quote : Dict) : Prop where
  valid : ∃ verification, verifyQuote P quote = .ok verification ∧
    verification.valid = true
  named : quote.get "provider_pubkey" = .str key
  unexpired : ∃ moment : DateTime, trace.getLast? = some ⟨.now, moment⟩ ∧
    quoteIsExpired P quote moment = .ok false
  sameUnits : (receipt.get "price_units").pyEq (quote.get "price_units") = true
  withinPrice : ∃ charged committed,
    priceOf P (receipt.get "price_amount") = .ok charged ∧
      priceOf P (quote.get "max_price") = .ok committed ∧
        charged.le committed = .ok true

theorem receiptTrusted_guarantee
    (trusted : receiptTrusted P (.obj receipt) candidate content = .ok true) :
    ∃ key, candidate.manifest.get "provider_pubkey" = .str key ∧
      ReceiptGuarantee P content key receipt := by
  obtain ⟨verification, verified, trusted⟩ := bind_eq_ok.mp trusted
  cases valid : verification.valid with
  | false => simp [valid] at trusted
  | true =>
      obtain ⟨_, document⟩ := (verifySigned_valid verified).mp valid
      obtain ⟨key, _, _, named, _⟩ := verifyDocument_true document
      simp only [valid, named, Bool.not_true, Bool.false_eq_true,
        if_false] at trusted
      split_ifs at trusted with different
      · cases trusted
      · obtain ⟨hash, hashed, trusted⟩ := bind_eq_ok.mp trusted
        have same : (Json.str key).pyEq
            (candidate.manifest.get "provider_pubkey") = true := by
          simpa using different
        refine ⟨key, Json.pyEq_str_left.mp same, ⟨verification, verified,
          valid⟩, named, hash, hashed, ?_⟩
        exact Json.isStr_iff.mp (Except.ok.inj trusted)

private theorem readPrices_some {charged committed : Json}
    {prices : Decimal × Decimal}
    (read : readPrices P charged committed = .ok (some prices)) :
    priceOf P charged = .ok prices.1 ∧ priceOf P committed = .ok prices.2 := by
  unfold readPrices at read
  cases first : priceOf P charged with
  | error error =>
      rw [first] at read
      dsimp only [error_bind] at read
      split_ifs at read
      cases read
  | ok value =>
      cases second : priceOf P committed with
      | error error =>
          rw [first, second] at read
          dsimp only [ok_bind, error_bind] at read
          split_ifs at read
          cases read
      | ok other =>
          rw [first, second] at read
          cases read
          exact ⟨rfl, rfl⟩

theorem withinQuote_true {quote : Dict}
    (within : withinQuote P quote (.obj receipt) = .ok true) :
    (receipt.get "price_units").pyEq (quote.get "price_units") = true ∧
      ∃ charged committed,
        priceOf P (receipt.get "price_amount") = .ok charged ∧
          priceOf P (quote.get "max_price") = .ok committed ∧
            charged.le committed = .ok true := by
  unfold withinQuote at within
  dsimp only [Json.asDict] at within
  cases sameUnits : (receipt.get "price_units").pyEq
      (quote.get "price_units") with
  | false => simp [sameUnits] at within
  | true =>
      simp only [sameUnits, Bool.not_true, Bool.false_eq_true,
        if_false] at within
      obtain ⟨prices, read, within⟩ := bind_eq_ok.mp within
      cases prices with
      | none => cases within
      | some prices =>
          obtain ⟨charged, committed⟩ := readPrices_some read
          exact ⟨rfl, _, _, charged, committed, within⟩

theorem entryPubkey_get {value : Json}
    (pubkey : entryPubkey candidate = .ok value) :
    candidate.manifest.get "provider_pubkey" = value := by
  unfold entryPubkey at pubkey
  unfold Dict.get
  cases stated : candidate.manifest.find "provider_pubkey" with
  | none => simp [stated] at pubkey
  | some other =>
      rw [stated] at pubkey
      cases pubkey
      rfl

/-- The receipt and the quote of a served result. -/
theorem Trustworthy.guarantees {quote : Option Dict}
    {trace : List RouterEvent} {result : Served}
    (verifies : options.verifyReceipts = true)
    (fetched : Fetched P options quote)
    (checked : Trustworthy P options candidate quote trace result) :
    ∃ key receipt, candidate.manifest.get "provider_pubkey" = .str key ∧
      result.receipt = .obj receipt ∧
        ReceiptGuarantee P result.content key receipt ∧
          (options.getQuote = true → ∃ stated, result.quote = some stated ∧
            QuoteGuarantee P key receipt trace stated) := by
  have trusted := checked.trusted verifies
  obtain ⟨receipt, isDict⟩ := receiptTrusted_dict trusted
  rw [isDict] at trusted
  obtain ⟨key, isKey, guarantee⟩ := receiptTrusted_guarantee trusted
  refine ⟨key, receipt, isKey, isDict, guarantee, ?_⟩
  intro asks
  rw [Fetched, if_pos asks] at fetched
  obtain ⟨stated, verification, rfl, verified, valid⟩ := fetched
  have honored := checked.honored stated rfl
  have signer := honored.signer
  rw [isKey] at signer
  have within := honored.within
  rw [isDict] at within
  obtain ⟨sameUnits, withinPrice⟩ := withinQuote_true within
  exact ⟨stated, checked.sameQuote, ⟨verification, verified, valid⟩,
    Json.pyEq_str_right.mp signer, honored.unexpired, sameUnits, withinPrice⟩

/-- **What a result guarantees.** -/
theorem route_result_guarantees {registry : List ProviderEntry}
    {wallet : List HeldVoucher} {final : NetworkState} {result : RouteResult}
    (verifies : options.verifyReceipts = true)
    (run : Exec anyNetwork ⟨wallet, []⟩ (chat P options registry) final
      (.ok result)) :
    ∃ tried candidate rest records key receipt,
      candidatesOf options registry = .ok (tried ++ candidate :: rest) ∧
      result.baseUrl = candidate.baseUrl ∧
      FailureRecords tried records ∧
      result.attempts = records ++ [(candidate.baseUrl, text "ok")] ∧
      Visits (clientsFrom 0 (tried ++ [candidate])) ⟨wallet, []⟩ final ∧
      candidate.manifest.get "provider_pubkey" = .str key ∧
      result.providerPubkey = .str key ∧
      result.receipt = .obj receipt ∧
      ReceiptGuarantee P result.content key receipt ∧
      (options.getQuote = true → ∃ quote, result.quote = some quote ∧
        QuoteGuarantee P key receipt final.trace quote) := by
  rcases Prog.wp_sound run (wp_chat registry) with ⟨error, equality⟩ |
    ⟨candidates, resolves, routed⟩
  · cases equality
  · cases routed with
    | @served tried rest candidate records result pubkey after split failures
        visited isPubkey served =>
        obtain ⟨⟨quote, fetched, checked⟩, _⟩ := served
        obtain ⟨key, receipt, isKey, isReceipt, guarantee, quoted⟩ :=
          checked.guarantees verifies fetched
        have sameKey := (entryPubkey_get isPubkey).symm.trans isKey
        exact ⟨tried, candidate, rest, records, key, receipt, split ▸ resolves,
          rfl, failures, rfl, visited, isKey, sameKey, isReceipt, guarantee,
          quoted⟩

def providerKey : Text := "ed25519:iojj3XQJ8ZX9UtstPLpdcspnCb8dlBIb83SIAbQPb1w"

def unsignedQuote : Dict :=
  [("quote_version", .str "sip-ai.quote.v1"), ("request_id", .str "r"),
    ("provider_pubkey", .str providerKey), ("model_alias", .str "m"),
    ("price_units", .str "pic"), ("input_per_1m", .str "0"),
    ("output_per_1m", .str "1000"), ("max_output_tokens", .int 256),
    ("max_price", .str "1"), ("issued_at", .str "2026-01-01T00:00:00Z"),
    ("expires_at", .str "2026-02-01T00:00:00Z")]

def quoteSignature : Text :=
  "ed25519:QmILnafoEc9wkHEFoPe_JUbo8udeqI7Evew40k3-zduozsqcqPzBdOziZ8nETiCkU3N5yHtzhmUHiu-8FXQ_Bw"

def signedQuote : Dict :=
  unsignedQuote.set "signature" (.str quoteSignature)

def unsignedReceipt : Dict :=
  [("receipt_version", .str "sip-ai.receipt.v1"), ("request_id", .str "r"),
    ("provider_pubkey", .str providerKey),
    ("model_manifest_hash", .str
      "sha256:0000000000000000000000000000000000000000000000000000000000000000"),
    ("model_alias", .str "m"), ("runtime", .str "ollama"),
    ("input_tokens", .int 1), ("output_tokens", .int 1),
    ("price_units", .str "pic"), ("price_amount", .str "1"),
    ("privacy_mode", .str "direct"),
    ("started_at", .str "2026-01-01T00:00:00Z"),
    ("completed_at", .str "2026-01-01T00:00:01Z"),
    ("response_hash", .str
      "sha256:8f434346648f6b96df89dda901c5176b10a6d83961dd3c1ac88b59b2dc327aa4"),
    ("request_hash", .str
      "sha256:f34244885bc2912271e20676d163d76ed27f7e800f4f1a07a39a95dd44c3c496")]

def receiptSignature : Text :=
  "ed25519:TUMLxZqxgVswOvfg1kaX47vVmZ9IP2Py_uZcNW_TaC4N3M1itjn7mL-pPz7c3YujEzvq0W8G7tyzSpwOcwKkCw"

def signedReceipt : Dict :=
  unsignedReceipt.set "signature" (.str receiptSignature)

def routeTable : SignatureTable where
  keys := []
  signatures := [(providerKey, unsignedQuote, quoteSignature),
    (providerKey, unsignedReceipt, receiptSignature)]

def oneEntry : List ProviderEntry :=
  [⟨"http://a", [("models", .arr [.str "m"]),
    ("provider_pubkey", .str providerKey)]⟩]

def quotedOptions : ChatOptions where
  model := "m"
  messages := []
  getQuote := true

def quotedAnswer : Script where
  requestId := "r"
  nonce := "n"
  now := ⟨63902822460000000, some 0⟩
  answers := [healthyAnswer, .ok ⟨200, .ok (.obj signedQuote)⟩,
    servedAnswer "hi" (.obj signedReceipt)]

theorem route_result_guarantees_quoted : ∃ result final,
    Exec anyNetwork ⟨[], []⟩ (chat routeTable.platform quotedOptions oneEntry)
        final (.ok result) ∧
      ∃ receipt quote, result.receipt = .obj receipt ∧
        ReceiptGuarantee routeTable.platform result.content providerKey
          receipt ∧
        result.quote = some quote ∧
          QuoteGuarantee routeTable.platform providerKey receipt final.trace
            quote := by
  have run := quotedAnswer.exec
    (chat routeTable.platform quotedOptions oneEntry) []
  have serves : ((quotedAnswer.run
      (chat routeTable.platform quotedOptions oneEntry) []).1.map
        fun result => result.providerPubkey.asStr) = .ok (some providerKey) := by
    decide +kernel
  cases ran : (quotedAnswer.run
      (chat routeTable.platform quotedOptions oneEntry) []).1 with
  | error error =>
      rw [ran] at serves
      cases serves
  | ok result =>
      rw [ran] at run serves
      obtain ⟨_, _, _, _, key, receipt, _, _, _, _, _, _, named, isReceipt,
        guarantee, quoted⟩ := route_result_guarantees rfl run
      obtain ⟨quote, isQuote, covered⟩ := quoted rfl
      have sameKey : key = providerKey := by
        simpa [Except.map, named, Json.asStr] using serves
      subst sameKey
      exact ⟨result, _, run, receipt, quote, isReceipt, guarantee, isQuote,
        covered⟩

end SovereignInference.SipRouter
