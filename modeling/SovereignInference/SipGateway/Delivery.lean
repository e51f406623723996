import SovereignInference.SipGateway.Charging
import SovereignInference.SipProtocol.SignatureTable

/-!
# What is delivered for a charge

A charged request ends in a completion exactly if the other keys of its payment
can be spent as well, its credit is written and its answer can be built.  The
list of accepted schemes has no part in this.
-/

namespace SovereignInference.SipGateway

open Python Effects SipProtocol SipPic

section

variable {P : Platform} {gateway : Gateway} {request : Request} {host : Host}
  {state : HostState} {order : Order} {required : Text} {result : ChatResult}

/-- No key of a charged request fails to be spent, its credit is written and its
answer is built. -/
structure Delivered (P : Platform) (gateway : Gateway) (host : Host)
    (state : HostState) (order : Order) (result : ChatResult) : Prop where
  spent : Calm host.faults (state.firstSpend order) order.keyCount
  credited : gateway.keepsLedger = true → host.saves = .ok ()
  answerable : Answerable P gateway order result
    (host.clock (state.readings + 1)) (host.clock (state.readings + 2))

theorem saved_ok :
    saved gateway host = .ok () ↔
      (gateway.keepsLedger = true → host.saves = .ok ()) := by
  unfold saved
  cases gateway.keepsLedger <;> simp

/-- What a delivered request is answered with. -/
theorem Delivered.run (paying : gateway.requirePayment = true)
    (charges : Charges P gateway request host state order required result)
    (delivered : Delivered P gateway host state order result) :
    (host.handler.run (chatCompletions P gateway request) state).1 =
      answer (priceAmount gateway) P gateway order (some required) result
        (host.clock (state.readings + 1))
        (host.clock (state.readings + 2)) := by
  obtain ⟨_, answers, _⟩ := run_charged paying charges
  rw [answers delivered.spent, saved_ok.mpr delivered.credited, ok_bind]

theorem charged_outcome (paying : gateway.requirePayment = true)
    (charges : Charges P gateway request host state order required result) :
    (∃ response, (host.handler.run (chatCompletions P gateway request)
        state).1 = .ok response) ↔
      Delivered P gateway host state order result := by
  have built := @answer_isOk P gateway order result required
    (host.clock (state.readings + 1)) (host.clock (state.readings + 2))
    (encodable_priceAmount charges.priced)
    (admission_encodable charges.admitted)
  constructor
  · rintro ⟨response, answered⟩
    obtain ⟨_, answers, raises⟩ := run_charged paying charges
    by_cases calm : Calm host.faults (state.firstSpend order) order.keyCount
    · rw [answers calm] at answered
      obtain ⟨done, credited, answered⟩ := bind_eq_ok.mp answered
      exact ⟨calm, saved_ok.mp credited, built.mp ⟨response, answered⟩⟩
    · obtain ⟨error, raised⟩ := raises calm
      rw [raised] at answered
      cases answered
  · intro delivered
    rw [delivered.run paying charges]
    exact built.mpr delivered.answerable

/-- If the stores change, the request is answered by a completion with the
content of the adapter and a signed receipt. -/
def ChargeOnSuccess (P : Platform) (gateway : Gateway) (request : Request)
    (host : Host) (state : HostState) : Prop :=
  let run := host.handler.run (chatCompletions P gateway request) state
  (run.2.spent ≠ state.spent ∨ run.2.ledger ≠ state.ledger) →
    ∃ order result response receipt unsigned,
      admission gateway request = .ok (.ok order) ∧
      host.adapter order.model order.messages order.maxTokens = .ok result ∧
      run.1 = .ok response ∧ response.status = 200 ∧
      response.content = completion order result receipt ∧
      signReceipt P unsigned gateway.keypair = .ok receipt

private theorem signedReceipt_signs {price : Text}
    {started completed : DateTime} {receipt : Dict}
    (signed : signedReceipt P gateway order result price started completed =
      .ok receipt) :
    ∃ unsigned, signReceipt P unsigned gateway.keypair = .ok receipt := by
  unfold signedReceipt at signed
  obtain ⟨responseHash, _, signed⟩ := bind_eq_ok.mp signed
  obtain ⟨requestHash, _, signed⟩ := bind_eq_ok.mp signed
  obtain ⟨unsigned, _, signed⟩ := bind_eq_ok.mp signed
  exact ⟨unsigned, signed⟩

/-- **Charge on success** holds of a request exactly if it is delivered
whenever it is charged. -/
theorem charge_on_success_iff (paying : gateway.requirePayment = true) :
    ChargeOnSuccess P gateway request host state ↔
      ∀ order required result,
        Charges P gateway request host state order required result →
          Delivered P gateway host state order result := by
  unfold ChargeOnSuccess
  dsimp only
  constructor
  · intro succeeds order required result charges
    obtain ⟨changed, _⟩ := run_charged paying charges
    obtain ⟨_, _, response, _, _, _, _, answered, _⟩ := succeeds (.inl changed)
    exact (charged_outcome paying charges).mp ⟨response, answered⟩
  · intro delivers changed
    by_cases charged : ∃ order required result,
        Charges P gateway request host state order required result
    · obtain ⟨order, required, result, charges⟩ := charged
      have delivered := delivers order required result charges
      obtain ⟨response, answered⟩ :=
        (charged_outcome paying charges).mpr delivered
      have built := answered
      rw [delivered.run paying charges] at built
      obtain ⟨status, price, receipt, _, signed, content⟩ := answer_ok built
      obtain ⟨unsigned, signs⟩ := signedReceipt_signs signed
      exact ⟨order, result, response, receipt, unsigned, charges.admitted,
        charges.served, answered, status, content, signs⟩
    · have unserved := @run_not_charged P gateway request host state paying
        fun order required result charges =>
          charged ⟨order, required, result, charges⟩
      rcases changed with spent | ledger
      · exact absurd unserved.spent spent
      · exact absurd unserved.ledger ledger

/-- A request answered with status 200 has paid with an accepted scheme. -/
def HonoursSchemes (P : Platform) (gateway : Gateway) (request : Request)
    (host : Host) (state : HostState) : Prop :=
  ∀ response,
    (host.handler.run (chatCompletions P gateway request) state).1 =
      .ok response → response.status = 200 →
    ∃ order scheme, admission gateway request = .ok (.ok order) ∧
      scheme ∈ accepted gateway ∧
      (order.payment.get "scheme").isStr scheme = true

/-- **The accepted schemes** are honoured exactly by the requests that are not
charged or not delivered, and by those whose scheme is in the list anyway. -/
theorem honours_schemes_iff (paying : gateway.requirePayment = true) :
    HonoursSchemes P gateway request host state ↔
      ∀ order required result,
        Charges P gateway request host state order required result →
        Delivered P gateway host state order result →
        ∃ scheme ∈ accepted gateway,
          (order.payment.get "scheme").isStr scheme = true := by
  constructor
  · intro honours order required result charges delivered
    obtain ⟨response, answered⟩ :=
      (charged_outcome paying charges).mpr delivered
    have built := answered
    rw [delivered.run paying charges] at built
    obtain ⟨other, scheme, admitted, member, named⟩ :=
      honours response answered (answer_ok built).1
    rw [charges.admitted, Except.ok.injEq, Except.ok.injEq] at admitted
    exact ⟨scheme, member, admitted ▸ named⟩
  · intro listed response answered status
    by_cases charged : ∃ order required result,
        Charges P gateway request host state order required result
    · obtain ⟨order, required, result, charges⟩ := charged
      have delivered :=
        (charged_outcome paying charges).mp ⟨response, answered⟩
      obtain ⟨scheme, member, named⟩ :=
        listed order required result charges delivered
      exact ⟨order, scheme, charges.admitted, member, named⟩
    · have unserved := @run_not_charged P gateway request host state paying
        fun order required result charges =>
          charged ⟨order, required, result, charges⟩
      exact absurd status (unserved.status response answered)

end

def gatewayKeypair : KeyPair := ⟨List.replicate 32 1⟩

def gatewayPubkey : Text := "ed25519:iojj3XQJ8ZX9UtstPLpdcspnCb8dlBIb83SIAbQPb1w"

def payerPubkey : Text := "ed25519:gTl3Dqh9F19Wo1Rmw0x-zMuNipG07jeiXfYPW4_Js5Q"

def assertionBody : Dict :=
  [("payer_pubkey", .str payerPubkey), ("amount", .str "2"),
    ("unit", .str "test"), ("nonce", .str "n1"),
    ("issued_at", .str "2026-01-01T00:00:00Z"),
    ("provider_pubkey", .str gatewayPubkey), ("request_id", .str "anon")]

def bodySignature : Text :=
  text "ed25519:0t-87Dr4sL_BR3K0vCfyMb0oH8xlAtXr82sRfoJvng" ++
    text "5gL1XPOw-Evv1jJ0tmxIv87tn7jDpnY3OzUvFU76SaCQ"

def receiptBody : Dict :=
  [("receipt_version", .str "sip-ai.receipt.v1"), ("request_id", .str "anon"),
    ("provider_pubkey", .str gatewayPubkey),
    ("model_manifest_hash", .str (text "sha256:" ++ List.replicate 64 0x30)),
    ("model_alias", .str "m"), ("runtime", .str "mock"),
    ("input_tokens", .int 1), ("output_tokens", .int 1),
    ("price_units", .str "test"), ("price_amount", .str "2"),
    ("privacy_mode", .str "direct"),
    ("started_at", .str "2026-01-01T00:01:00Z"),
    ("completed_at", .str "2026-01-01T00:01:00Z"),
    ("response_hash", .str
      "sha256:2689367b205c16ce32ed4200942b8b8b1e262dfc70d9bc9fbc77c49699a4f1df"),
    ("request_hash", .str
      "sha256:6d139f1403cd84518768857efed6c375c0e3fe1af3f250cd3a5c59ea87a0323c")]

def receiptSignature : Text :=
  text "ed25519:vB-N9mb_1dmOZo00mhqWAcLDtaUrjCKhyW0VRjgGUZ" ++
    text "wKbClHbjV1IAn3zE01yfyzg_ailIht_8RQx1nbup5OBg"

def gatewayTable : SignatureTable where
  keys := [(gatewayKeypair.privateKey, gatewayPubkey)]
  signatures := [(payerPubkey, assertionBody, bodySignature),
    (gatewayPubkey, receiptBody, receiptSignature)]

/-- Two words or tokens cost two units. -/
def payingGateway : Gateway where
  adapterName := "mock"
  keypair := gatewayKeypair
  allowedModels := ["m"]
  inputPer1m := "1000000"
  outputPer1m := "1000000"
  requirePayment := true

def picOnlyGateway : Gateway :=
  { payingGateway with acceptSchemes := some ["pic"] }

def assertionPayment : Dict :=
  [("scheme", .str "x402"),
    ("payment", .obj
      (assertionBody.set "signature" (.str bodySignature)))]

def paidRequest (content : Text) : Request where
  authorization := none
  privacyMode := none
  requestId := none
  body := some (.obj [("model", .str "m"),
    ("messages", .arr [.obj [("role", .str "user"),
      ("content", .str content)]]),
    ("max_tokens", .int 1), ("sip_payment", .obj assertionPayment)])

def answeringHost : Host where
  clock := fun _ => ⟨63902822460000000, some 0⟩
  allows := true
  adapter := fun _ _ _ => .ok ⟨"ok", 1, 1⟩
  saves := .ok ()

def freshState : HostState := ⟨∅, [], 0, 0⟩

def paidRun (gateway : Gateway) (content : Text) :
    Except PyExc Response × HostState :=
  answeringHost.handler.run (chatCompletions gatewayTable.platform gateway
    (paidRequest content)) freshState

theorem paidRequest_admitted {gateway : Gateway} {content : Text}
    {order : Order}
    (admitted : admission gateway (paidRequest content) = .ok (.ok order)) :
    order.model = "m" ∧
      order.messages = [.obj [("role", .str "user"),
        ("content", .str content)]] ∧
      order.payment = assertionPayment := by
  obtain ⟨body, hasBody, made⟩ := admission_ok admitted
  cases hasBody
  exact ⟨(Option.some.inj made.model).symm,
    (Option.some.inj made.messages).symm, made.payment⟩

theorem honours_schemes_iff_both :
    HonoursSchemes gatewayTable.platform payingGateway (paidRequest "hi")
      answeringHost freshState := by
  apply (honours_schemes_iff rfl).mpr
  intro order required result charges delivered
  rw [(paidRequest_admitted charges.admitted).2.2]
  exact ⟨"x402", by decide, by decide⟩

/-- A gateway that only accepts `pic` serves a request paid with `x402`. -/
theorem pic_only_serves_x402 :
    ¬ HonoursSchemes gatewayTable.platform picOnlyGateway (paidRequest "hi")
      answeringHost freshState := by
  have served : (paidRun picOnlyGateway "hi").1.toOption.map (·.status) =
      some 200 := by decide +kernel
  unfold paidRun at served
  unfold HonoursSchemes
  generalize answeringHost.handler.run _ _ = run at served ⊢
  intro honours
  cases answered : run.1 with
  | error error => simp [answered, Except.toOption] at served
  | ok response =>
      have status : response.status = 200 := by
        simpa [answered, Except.toOption] using served
      obtain ⟨order, scheme, admitted, member, named⟩ :=
        honours response answered status
      rw [(paidRequest_admitted admitted).2.2,
        List.mem_singleton.mp member] at named
      exact absurd named (by decide)

theorem charge_on_success_iff_hi :
    ChargeOnSuccess gatewayTable.platform payingGateway (paidRequest "hi")
      answeringHost freshState := by
  apply (charge_on_success_iff rfl).mpr
  intro order required result charges
  obtain ⟨model, messages, _⟩ := paidRequest_admitted charges.admitted
  obtain rfl : ⟨"ok", 1, 1⟩ = result := Except.ok.inj charges.served
  have small : ∀ n < 10, n < 10 ^ maxStrDigits := fun n below =>
    lt_of_lt_of_le below (Nat.le_self_pow (by decide) 10)
  refine ⟨fun _ _ => rfl, fun keeps => absurd keeps (by decide), ?_⟩
  constructor
  · exact encodable_text _
  · rw [model]
    exact encodable_text _
  · rw [messages]
    simp
  · exact encodable_append.mpr
      ⟨encodable_text _, encodable_replicate (by decide) _⟩
  · exact encodable_text _
  · exact encodable_text _
  · exact small 1 (by decide)
  · exact small 1 (by decide)
  · exact small 2 (by decide)
  · exact ⟨_, rfl⟩
  · exact ⟨_, rfl⟩

/-- A prompt with a lone surrogate is charged, and then the handler raises. -/
theorem surrogate_prompt_charged :
    ¬ ChargeOnSuccess gatewayTable.platform payingGateway
      (paidRequest [0xD800]) answeringHost freshState := by
  have raised : (paidRun payingGateway [0xD800]).1.toOption.isNone ∧
      (paidRun payingGateway [0xD800]).2.spent = {x402SpendKey "n1"} := by
    decide +kernel
  unfold paidRun at raised
  unfold ChargeOnSuccess
  generalize answeringHost.handler.run _ _ = run at raised ⊢
  obtain ⟨noAnswer, spent⟩ := raised
  intro succeeds
  have changed : run.2.spent ≠ freshState.spent := by
    rw [spent]
    exact Finset.singleton_ne_empty _
  obtain ⟨_, _, response, _, _, _, _, answered, _⟩ := succeeds (.inl changed)
  simp [answered, Except.toOption] at noAnswer

end SovereignInference.SipGateway
