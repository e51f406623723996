import SovereignInference.SipGateway.Exchange
import SovereignInference.SipPic.Agreement

/-!
# Paying a challenge

A gateway answers an unpaid request with its price, and the client sends the
request again with a payment for that price.  The gateway then asks the same
price of it, so its store of spent credits and the clocks decide.
-/

namespace SovereignInference.SipGateway

open Python Python.Json Effects SipProtocol SipPic
open SipRouter (ChatOptions ProviderEntry RouterOp RouterProg RouterSig
  accepts challengeOf completionBody completionHeaders payChallenge picPayment
  preparePayment reserveVouchers safeJson signPayment)

variable {P : Platform} {codecs : Codecs} {depth : Nat} {gateway : Gateway}
  {request : Request} {order : Order} {response : Response} {price : Text}

private theorem readOrder_refused {body : Dict} {refusal : Refusal}
    (refused : readOrder gateway request body = .error refusal) :
    refusal.status ≠ 402 := by
  unfold readOrder at refused
  split at refused
  · simp only [throw_eq_error, pure_eq_ok] at refused
    split at refused
    · cases refused
      decide
    · cases reads : readMaxTokens body with
      | error other =>
          simp only [reads, error_bind, Except.error.injEq] at refused
          simp [← refused, readMaxTokens_error reads]
      | ok maxTokens =>
          simp only [reads, ok_bind] at refused
          split_ifs at refused <;> cases refused <;> decide
  · cases refused
    decide

theorem admission_unpriced {refusal : Refusal}
    (refused : admission gateway request = .ok (.error refusal)) :
    refusal.status ≠ 402 := by
  unfold admission at refused
  obtain ⟨authorized, _, refused⟩ := bind_eq_ok.mp refused
  cases authorized with
  | false =>
      cases refused
      decide
  | true =>
      simp only [Bool.not_true, Bool.false_eq_true, if_false, pure_eq_ok]
        at refused
      split at refused
      · cases refused
        decide
      · split at refused
        · cases refused
          decide
        · exact readOrder_refused (Except.ok.inj refused)

/-- A response with status 402 is the challenge for the price of the order. -/
def AsksPrice (gateway : Gateway) (request : Request) (response : Response) :
    Prop :=
  response.status = 402 → ∃ order price,
    admission gateway request = .ok (.ok order) ∧
      requiredPrice gateway order = .ok price ∧
        paymentRequiredResponse gateway price = .ok response

theorem asksPrice_of_status {content : Dict} {status : Nat}
    (other : status ≠ 402) (built : jsonResponse content status = .ok response) :
    AsksPrice gateway request response := by
  intro is402
  rw [(jsonResponse_ok built).2] at is402
  exact absurd is402 other

theorem challenge_asksPrice
    (admitted : admission gateway request = .ok (.ok order))
    (priced : requiredPrice gateway order = .ok price) :
    Always (AsksPrice gateway request)
      (.ofExcept (paymentRequiredResponse gateway price)) :=
  Prog.yields_ofExcept.mpr fun _ challenged _ =>
    ⟨order, price, admitted, priced, challenged⟩

private theorem serve_asksPrice {required : Option Text}
    (admitted : admission gateway request = .ok (.ok order))
    (priced : ∀ price, required = some price →
      requiredPrice gateway order = .ok price) :
    Always (AsksPrice gateway request)
      (serve (priceAmount gateway) P gateway order required) := by
  unfold serve
  refine Prog.yields_bind fun started => Prog.yields_bind fun answered => ?_
  cases answered with
  | error error =>
      exact Prog.yields_ofExcept.mpr fun _ => asksPrice_of_status (by decide)
  | ok result =>
      refine Prog.yields_bind fun completed => ?_
      have commits : Always (fun challenge : Option Response =>
          ∀ response, challenge = some response →
            AsksPrice gateway request response)
          (commitPayment P gateway order required) := by
        cases required with
        | none => exact nofun
        | some price =>
            refine Prog.yields_bind fun moment => Prog.yields_bind
              fun committed => ?_
            split_ifs
            · exact Prog.yields_bind fun _ => nofun
            · refine (challenge_asksPrice admitted (priced price rfl)).bind ?_
              rintro response asks _ ⟨⟩
              exact asks
      refine commits.bind fun challenge asks => ?_
      cases challenge with
      | some response => exact asks response rfl
      | none =>
          refine Prog.yields_ofExcept.mpr fun response answered => ?_
          obtain ⟨price, _, answered⟩ := bind_eq_ok.mp answered
          obtain ⟨receipt, _, built⟩ := bind_eq_ok.mp answered
          exact asksPrice_of_status (by decide) built

private theorem handleOrder_asksPrice
    (admitted : admission gateway request = .ok (.ok order)) :
    Always (AsksPrice gateway request)
      (handleOrder (priceAmount gateway) P gateway order) := by
  have verifies : Always (fun verified : Except Response (Option Text) =>
      (∀ response, verified = .error response →
        AsksPrice gateway request response) ∧
      ∀ required price, verified = .ok required → required = some price →
        requiredPrice gateway order = .ok price)
      (verifyPayment (priceAmount gateway) P gateway order) := by
    unfold verifyPayment
    split_ifs
    · refine ⟨nofun, ?_⟩
      rintro _ price ⟨⟩ ⟨⟩
    · refine Prog.Yields.bind (Prog.yields_ofExcept.mpr fun required priced =>
        priced) fun required priced => ?_
      refine Prog.yields_bind fun moment => Prog.yields_bind fun check => ?_
      split_ifs
      · refine ⟨nofun, ?_⟩
        rintro _ price ⟨⟩ ⟨⟩
        exact priced
      · refine (challenge_asksPrice admitted priced).bind ?_
        intro response asks
        refine ⟨?_, nofun⟩
        rintro _ ⟨⟩
        exact asks
  refine verifies.bind fun verified holds => ?_
  cases verified with
  | error response => exact holds.1 response rfl
  | ok required =>
      exact serve_asksPrice admitted fun price => holds.2 required price rfl

/-- **Status 402 states the price** of the request, whatever the host does. -/
theorem chatCompletions_asksPrice :
    Always (AsksPrice gateway request) (chatCompletions P gateway request) := by
  unfold chatCompletions chatCompletionsBy
  refine Prog.Yields.bind (Prog.yields_ofExcept.mpr fun admitted isAdmitted =>
    isAdmitted) fun admitted isAdmitted => ?_
  cases admitted with
  | error refusal =>
      refine Prog.yields_ofExcept.mpr fun response refused => ?_
      exact asksPrice_of_status (admission_unpriced isAdmitted) refused
  | ok order =>
      dsimp only
      split_ifs
      · refine Prog.yields_bind fun allowed => ?_
        split_ifs
        · refine (Prog.yields_ofExcept.mpr ?_)
          exact fun response => asksPrice_of_status (by decide)
        · exact handleOrder_asksPrice isAdmitted
      · exact handleOrder_asksPrice isAdmitted

/-- The body of a challenge. -/
def challengeBody (gateway : Gateway) (price : Text) : Dict :=
  [("error", .str "payment required"),
    ("sip_payment_required", .obj (paymentRequired price gateway.priceUnits
      (issuers gateway) (accepted gateway)))]

/-- The challenge as the client reads it. -/
theorem challenge_asRead (deep : 3 ≤ depth)
    (challenged : paymentRequiredResponse gateway price = .ok response) :
    safeJson (asRead codecs depth response) =
      .ok (.obj (challengeBody gateway price)) := by
  obtain ⟨sent, dumped, built⟩ := bind_eq_ok.mp challenged
  cases built
  have texts : ∀ items : List Text, (Json.arr (items.map .str)).DistinctKeys ∧
      nesting (.arr (items.map .str)) = 1 := by
    intro items
    induction items with
    | nil => exact ⟨.arr _ nofun, rfl⟩
    | cons item rest induction =>
        refine ⟨.arr _ fun value member => ?_, ?_⟩
        · obtain ⟨_, _, rfl⟩ := List.mem_map.mp member
          exact .str _
        · simpa [nesting, nestingItems] using induction.2
  obtain ⟨distinctAccepted, flatAccepted⟩ := texts (accepted gateway)
  obtain ⟨distinctIssuers, flatIssuers⟩ := texts (issuers gateway)
  have distinct : (Json.obj (paymentRequired price gateway.priceUnits
      (issuers gateway) (accepted gateway))).DistinctKeys :=
    distinct_obj ["price_amount", "price_units", "accepted_schemes",
      "pic_issuers"] rfl (by decide)
      (by simp [paymentRequired, DistinctKeys.str, distinctAccepted,
        distinctIssuers])
  have shallow : nesting (.obj (challengeBody gateway price)) ≤ depth := by
    simp only [challengeBody, paymentRequired, nesting, nestingFields, nestingField]
      at flatAccepted flatIssuers ⊢
    omega
  have distinctBody : (Json.obj (challengeBody gateway price)).DistinctKeys :=
    distinct_obj ["error", "sip_payment_required"] rfl (by decide)
      (by simp [challengeBody, DistinctKeys.str, distinct])
  have read := @Http.bodyJson_dumpBytes codecs depth _ sent distinctBody shallow
    dumped
  unfold safeJson asRead
  rw [read]

/-- A payment that was prepared for a price: a signature over it, or vouchers
picked from a wallet for it. -/
inductive PreparedFor (P : Platform) (options : ChatOptions)
    (stocked : List HeldVoucher → Prop) (publicKey : Json) (requestId : Text)
    (price unit : Text) : SipRouter.Preparation → Prop where
  | failover (label : Text) : PreparedFor P options stocked publicKey requestId
      price unit (.failover label)
  | signed {payer : KeyPair} {nonce : Text} {moment : DateTime}
      {payment : Dict} : options.x402Keypair = some payer →
      buildX402Payment P payer price unit nonce moment publicKey requestId =
        .ok payment →
      PreparedFor P options stocked publicKey requestId price unit
        (.pay payment none)
  | picked {held picked rest : List HeldVoucher} : stocked held →
      Wallet.select P.precision held price unit = .ok (picked, rest) →
      PreparedFor P options stocked publicKey requestId price unit
        (.pay (picPayment picked) (some picked))

variable {options : ChatOptions} {candidate : ProviderEntry} {requestId : Text}
  {stocked : List HeldVoucher → Prop}

/-- A wallet holds what it is stocked with. -/
def Stocked (stocked : List HeldVoucher → Prop) (op : RouterOp)
    (answer : RouterSig.Ans op) : Prop :=
  match op, answer with
  | .heldVouchers, held => stocked held
  | _, _ => True

theorem yields_preparedFor {answer : SipRouter.Response}
    (read : safeJson answer = .ok (.obj (challengeBody gateway price))) :
    (preparePayment P options answer candidate requestId).Yields
      (Stocked stocked) (PreparedFor P options stocked
        (candidate.manifest.get "provider_pubkey") requestId price
        gateway.priceUnits) := by
  unfold preparePayment
  rw [read]
  show (ite _ (reserveVouchers P price gateway.priceUnits) _).Yields _ _
  split_ifs
  · intro held isStocked
    dsimp only [Prog.bind]
    split
    · rename_i picked rest selects
      exact Prog.yields_bind fun _ => .picked isStocked selects
    · split_ifs
      · exact .failover _
      · trivial
  · split
    · rename_i payer filtered
      obtain ⟨isPayer, _⟩ := Option.filter_eq_some_iff.mp filtered
      refine Prog.yields_bind fun nonce => Prog.yields_bind fun moment => ?_
      refine Prog.Yields.bind (SipRouter.yields_lift.mpr fun payment built =>
        built) fun payment built => ?_
      exact .signed isPayer built
    · exact .failover _

/-- Two posts of one request, the second with a payment: the challenge for the
price, and the order that is read again. -/
structure Repeated (P : Platform) (codecs : Codecs) (depth : Nat)
    (gateway : Gateway) (options : ChatOptions) (requestId price : Text)
    (payment : Dict) (challenge : SipRouter.Response) (order : Order) : Prop
    where
  priced : requiredPrice gateway order = .ok price
  payment : order.payment = payment
  requestId : order.requestId = requestId
  challenge : safeJson challenge = .ok (.obj (challengeBody gateway price))

/-- The price depends on the messages and the limit only. -/
theorem requiredPrice_congr {first second : Order}
    (messages : first.messages = second.messages)
    (maxTokens : first.maxTokens = second.maxTokens) :
    requiredPrice gateway first = requiredPrice gateway second := by
  unfold requiredPrice billedInput
  rw [messages, maxTokens]

/-- The unpaid request has some of the fields of the paid one. -/
theorem unpaid_distinct {payment : Dict}
    (distinct : (Json.obj (completionBody options (some payment))).DistinctKeys) :
    (Json.obj (completionBody options none)).DistinctKeys := by
  have split : completionBody options (some payment) =
      completionBody options none ++ [(text "sip_payment", .obj payment)] := rfl
  rw [split] at distinct
  cases distinct with
  | obj _ nodup each =>
      rw [List.map_append] at nodup
      exact .obj _ (List.nodup_append.mp nodup).1
        fun field member => each field (List.mem_append_left _ member)

theorem repeated {S : Type} {world : World GatewaySig S} {before after : S}
    {unpaid paid : Request} {payment : Dict} (deep : 3 ≤ depth)
    (distinct : (Json.obj (completionBody options (some payment))).DistinctKeys)
    (arrives : arriving codecs depth (completionHeaders options requestId)
      (completionBody options none) = .ok unpaid)
    (challenged : Exec world before (chatCompletions P gateway unpaid) after
      (.ok response)) (is402 : response.status = 402)
    (again : arriving codecs depth (completionHeaders options requestId)
      (completionBody options (some payment)) = .ok paid)
    (admitted : admission gateway paid = .ok (.ok order)) :
    ∃ price, Repeated P codecs depth gateway options requestId price payment
      (asRead codecs depth response) order := by
  have asks := chatCompletions_asksPrice.exec (fun _ _ _ _ _ => trivial)
    challenged is402
  obtain ⟨first, price, admittedFirst, priced, stated⟩ := asks
  have asked := orderFor (unpaid_distinct distinct) arrives admittedFirst
  have ordered := orderFor distinct again admitted
  refine ⟨price, ?_, ?_, ordered.requestId, challenge_asRead deep stated⟩
  · rw [← priced]
    exact requiredPrice_congr (ordered.messages.trans asked.messages.symm)
      (ordered.maxTokens.trans asked.maxTokens.symm)
  · obtain ⟨_, _, isBody⟩ := arriving_eq_ok distinct again
    obtain ⟨body, hasBody, read⟩ := admission_read admitted
    rw [isBody] at hasBody
    cases hasBody
    rw [(readOrder_ok read).payment]
    rfl

section

variable {S T : Type} {world : World GatewaySig S} {before after : S}
  {wire : World RouterSig T} {state final : T} {unpaid paid : Request}
  {payment : Dict} (deep : 3 ≤ depth)
  (distinct : (Json.obj (completionBody options (some payment))).DistinctKeys)
  (arrives : arriving codecs depth (completionHeaders options requestId)
    (completionBody options none) = .ok unpaid)
  (challenged : Exec world before (chatCompletions P gateway unpaid) after
    (.ok response))
  (is402 : response.status = 402)
  (again : arriving codecs depth (completionHeaders options requestId)
    (completionBody options (some payment)) = .ok paid)
  (admitted : admission gateway paid = .ok (.ok order))

include deep distinct arrives challenged is402 again admitted

/-- **A challenge is paid by signing it**: the gateway accepts what the client
prepares for it during five minutes, if the nonce was not spent. -/
theorem signed_payment_settles
    (signs : ∀ payer, options.x402Keypair = some payer → P.SignsFor payer)
    (listed : candidate.manifest.get "provider_pubkey" =
      .str (publicKeyStr P gateway))
    (prepared : Exec wire state (preparePayment P options
      (asRead codecs depth response) candidate requestId) final
      (.ok (.pay payment none))) :
    ∃ price payer nonce moment issued,
      requiredPrice gateway order = .ok price ∧
      buildX402Payment P payer price gateway.priceUnits nonce moment
        (.str (publicKeyStr P gateway)) requestId = .ok order.payment ∧
      moment.toUtc P.localOffset = .ok issued ∧
      ∀ now current commit keys, now.toUtc P.localOffset = .ok current →
        (Redeemed (spentTable.run (redeem P (termsAt P gateway order price now)
            order.payment commit) keys).1 ↔
          SipPic.Fresh price nonce issued current keys) := by
  obtain ⟨price, made⟩ := repeated deep distinct arrives challenged is402 again
    admitted
  have yields := @yields_preparedFor P gateway price options candidate requestId
    (fun _ => True) _ made.challenge
  have prepares := yields.exec (fun _ op _ _ _ => by cases op <;> trivial)
    prepared
  rw [listed] at prepares
  cases prepares with
  | @signed payer nonce moment _ isPayer built =>
      obtain ⟨issued, _, isIssued, _⟩ := buildX402Payment_signedFor
        (signs payer isPayer) built
      rw [made.payment]
      refine ⟨price, payer, nonce, moment, issued, made.priced, built, isIssued,
        ?_⟩
      intro now current commit keys isCurrent
      obtain ⟨other, isOther, decides⟩ := @signed_redeemed_iff P
        (termsAt P gateway order price now) commit keys current payer nonce
        (publicKeyStr P gateway) requestId moment payment (signs payer isPayer)
        built rfl (congrArg some made.requestId) isCurrent
      rw [isIssued, Except.ok.injEq] at isOther
      rw [isOther]
      exact decides

/-- **A challenge is paid from a wallet**: the gateway accepts vouchers that the
client picked for it, if it trusts their issuers, none has expired, and none
was spent. -/
theorem picked_payment_settles {picked : List HeldVoucher}
    (sound : P.SchemaSound)
    (stocks : ∀ state held after, wire.step state .heldVouchers held after →
      ∀ voucher ∈ held, ∃ issuer, P.SignsFor issuer.keypair ∧
        FromIssuer P issuer voucher.voucher)
    (prepared : Exec wire state (preparePayment P options
      (asRead codecs depth response) candidate requestId) final
      (.ok (.pay payment (some picked)))) :
    ∃ price credits, requiredPrice gateway order = .ok price ∧
      credits.map PickedCredit.held = picked ∧
      (∀ credit ∈ credits, credit.Signed P) ∧
      ∀ now current commit keys, now.toUtc P.localOffset = .ok current →
        (Redeemed (spentTable.run (redeem P (termsAt P gateway order price now)
            order.payment commit) keys).1 ↔
          Spendable P (issuers gateway) current keys credits) := by
  obtain ⟨price, made⟩ := repeated deep distinct arrives challenged is402 again
    admitted
  have yields := @yields_preparedFor P gateway price options candidate requestId
    (fun held => ∀ voucher ∈ held, ∃ issuer, P.SignsFor issuer.keypair ∧
      FromIssuer P issuer voucher.voucher) _ made.challenge
  have prepares := yields.exec (by
    intro state op answer after stepped
    cases op with
    | heldVouchers => exact stocks state answer after stepped
    | _ => trivial) prepared
  cases prepares with
  | picked stocked selects =>
      have issued : ∀ voucher ∈ picked, ∃ issuer,
          P.SignsFor issuer.keypair ∧ FromIssuer P issuer voucher.voucher :=
        fun voucher member =>
          stocked voucher ((Wallet.select_sublist selects).subset member)
      obtain ⟨credits, same, signed⟩ := exists_credits issued
      rw [← same] at selects
      refine ⟨price, credits, made.priced, same, signed, ?_⟩
      intro now current commit keys isCurrent
      have decides := @picked_redeemed_iff P
        (termsAt P gateway order price now) commit keys current credits _ _
        sound signed selects isCurrent
      rw [made.payment, ← same]
      unfold picPayment
      rw [List.map_map]
      exact decides

end

def paymentSignature : Text :=
  text "ed25519:ZwdSJbLoq0gyjIfe_kzf03-vTnECufidTM3x43mlIn2" ++
    text "wPyNTcRHsQ85rfsC2zCN5LfMzH-H2M7yGYrMIb-gdDQ"

def creditSignature : Text :=
  text "ed25519:erWddcIXq5xvGSMz4arm-Y8dbJJTPqZesrOdnFR9Rdy" ++
    text "Nu_TMyAaxJo7-ah_hFCpmBJJROvnIPqNHk8LvKnJ3Bw"

def zeroId : Text := List.replicate 43 0x41

def paymentTable : SignatureTable where
  keys := [(gatewayKeypair.privateKey, gatewayPubkey)]
  signatures :=
    [(gatewayPubkey, [("payer_pubkey", .str gatewayPubkey),
      ("amount", .str "2"), ("unit", .str "test"), ("nonce", .str "n"),
      ("issued_at", .str "2026-01-01T00:01:00Z"),
      ("provider_pubkey", .str gatewayPubkey), ("request_id", .str "r")],
      paymentSignature),
    (gatewayPubkey, [("voucher_version", .str "sip-ai.voucher.v1"),
      ("voucher_id", .str zeroId), ("denomination", .str "2"),
      ("unit", .str "test"), ("issuer_pubkey", .str gatewayPubkey),
      ("issued_at", .str "2026-01-01T00:01:00Z"),
      ("expires_at", .str "2026-01-01T01:01:00Z")], creditSignature)]

def paymentPlatform : Platform := signingPlatform paymentTable gatewayKeypair

def creditGateway : Gateway :=
  { payingGateway with picIssuers := some [gatewayPubkey] }

def unitIssuer : Issuer := ⟨gatewayKeypair, "test"⟩

/-- One voucher over two units, for an hour. -/
def unitVouchers : Except PyExc (List Dict) :=
  unitIssuer.issue paymentPlatform "2" 1 3600 (answeringHost.clock 0)
    fun _ => ⟨List.replicate 32 0, rfl⟩

def hiOptions : ChatOptions :=
  { nodeOptions with maxTokens := 1, wallet := true
                     x402Keypair := some gatewayKeypair }

/-- The client of one gateway, with a wallet. -/
def walletWire (held : List HeldVoucher) : Handler RouterSig HostState where
  respond := fun state op =>
    match op with
    | .heldVouchers => (held, state)
    | op => (wired paymentPlatform Http.utf8Codecs 4 creditGateway
        answeringHost).respond state op

def challengeRun (unpaid : Request) : Except PyExc Response × HostState :=
  answeringHost.handler.run
    (chatCompletions paymentPlatform creditGateway unpaid) freshState

def prepareRun (held : List HeldVoucher) (options : ChatOptions)
    (response : Response) :
    Except SipRouter.RouterExc SipRouter.Preparation × HostState :=
  (walletWire held).run (preparePayment paymentPlatform options
    (asRead Http.utf8Codecs 4 response) nodeEntry "r") freshState

/-- The order that comes with the payment for a challenge. -/
def paidOrder (held : List HeldVoucher) (options : ChatOptions) :
    Except PyExc (Option (Dict × Option (List HeldVoucher) × Order)) := do
  let unpaid ← arriving Http.utf8Codecs 4 (completionHeaders options "r")
    (completionBody options none)
  let response ← (challengeRun unpaid).1
  match (prepareRun held options response).1 with
  | .ok (.pay payment reserved) => do
      let paid ← arriving Http.utf8Codecs 4 (completionHeaders options "r")
        (completionBody options (some payment))
      match ← admission creditGateway paid with
      | .ok order =>
          return if response.status = 402 ∧ (Json.obj (completionBody options
              (some payment))).DistinctKeys then
            some (payment, reserved, order)
          else none
      | .error _ => return none
  | _ => return none

theorem paidOrder_eq_ok {held : List HeldVoucher} {options : ChatOptions}
    {payment : Dict} {reserved : Option (List HeldVoucher)} {order : Order}
    (paid : paidOrder held options = .ok (some (payment, reserved, order))) :
    ∃ unpaid response again,
      (Json.obj (completionBody options (some payment))).DistinctKeys ∧
      arriving Http.utf8Codecs 4 (completionHeaders options "r")
        (completionBody options none) = .ok unpaid ∧
      (challengeRun unpaid).1 = .ok response ∧ response.status = 402 ∧
      (prepareRun held options response).1 = .ok (.pay payment reserved) ∧
      arriving Http.utf8Codecs 4 (completionHeaders options "r")
        (completionBody options (some payment)) = .ok again ∧
      admission creditGateway again = .ok (.ok order) := by
  obtain ⟨unpaid, arrives, paid⟩ := bind_eq_ok.mp paid
  obtain ⟨response, answers, paid⟩ := bind_eq_ok.mp paid
  split at paid
  · rename_i made kept prepared
    obtain ⟨again, arrivesAgain, paid⟩ := bind_eq_ok.mp paid
    obtain ⟨admitted, isAdmitted, paid⟩ := bind_eq_ok.mp paid
    cases admitted with
    | error refusal => cases paid
    | ok order' =>
        simp only [pure_eq_ok, Except.ok.injEq] at paid
        split_ifs at paid with both
        cases paid
        exact ⟨unpaid, response, again, both.2, arrives, answers, both.1,
          prepared, arrivesAgain, isAdmitted⟩
  · cases paid

theorem challengeRun_exec {unpaid : Request} {response : Response}
    (answers : (challengeRun unpaid).1 = .ok response) :
    Exec answeringHost.handler.world freshState
      (chatCompletions paymentPlatform creditGateway unpaid)
      (challengeRun unpaid).2 (.ok response) := by
  rw [← answers]
  exact answeringHost.handler.exec_run _ _

theorem prepareRun_exec {held : List HeldVoucher} {options : ChatOptions}
    {response : Response} {preparation : SipRouter.Preparation}
    (prepares : (prepareRun held options response).1 = .ok preparation) :
    Exec (walletWire held).world freshState
      (preparePayment paymentPlatform options
        (asRead Http.utf8Codecs 4 response) nodeEntry "r")
      (prepareRun held options response).2 (.ok preparation) := by
  rw [← prepares]
  exact (walletWire held).exec_run _ _

theorem exists_paidOrder {held : List HeldVoucher} {options : ChatOptions}
    {reserves : Option (List HeldVoucher) → Bool}
    (completes : (paidOrder held options).toOption.join.any
      (fun paid => reserves paid.2.1) = true) :
    ∃ payment reserved order,
      paidOrder held options = .ok (some (payment, reserved, order)) ∧
        reserves reserved = true := by
  cases ran : paidOrder held options with
  | error error =>
      rw [ran] at completes
      cases completes
  | ok paid =>
      rw [ran] at completes
      cases paid with
      | none => cases completes
      | some paid => exact ⟨paid.1, paid.2.1, paid.2.2, rfl, completes⟩

theorem paymentPlatform_signs : paymentPlatform.SignsFor gatewayKeypair :=
  signingPlatform_signs (by decide +kernel)

def signingOptions : ChatOptions := { hiOptions with wallet := false }

theorem signed_payment_settles_hi :
    ∃ payment order price nonce issued,
      paidOrder [] signingOptions = .ok (some (payment, none, order)) ∧
      requiredPrice creditGateway order = .ok price ∧
      ∀ now current commit keys,
        now.toUtc paymentPlatform.localOffset = .ok current →
        (Redeemed (spentTable.run (redeem paymentPlatform
            (termsAt paymentPlatform creditGateway order price now)
            order.payment commit) keys).1 ↔
          SipPic.Fresh price nonce issued current keys) := by
  obtain ⟨payment, reserved, order, paid, unreserved⟩ :=
    @exists_paidOrder [] signingOptions Option.isNone (by decide +kernel)
  rw [Option.isNone_iff_eq_none] at unreserved
  subst unreserved
  obtain ⟨unpaid, response, again, distinct, arrives, answers, is402, prepares,
    arrivesAgain, admitted⟩ := paidOrder_eq_ok paid
  obtain ⟨price, _, nonce, _, issued, priced, _, _, decides⟩ :=
    signed_payment_settles (by decide) distinct arrives
      (challengeRun_exec answers) is402 arrivesAgain admitted (by
        rintro _ ⟨⟩
        exact paymentPlatform_signs) rfl (prepareRun_exec prepares)
  exact ⟨payment, order, price, nonce, issued, paid, priced, decides⟩

/-- The vouchers of an issuer, as they lie in a wallet. -/
def walletOf : Except PyExc (List Dict) → List HeldVoucher
  | .ok vouchers => vouchers.zipIdx.map fun entry => ⟨entry.2, entry.1⟩
  | .error _ => []

private theorem walletWire_held {held answer : List HeldVoucher}
    {state after : HostState}
    (stepped : (walletWire held).world.step state .heldVouchers answer after) :
    answer = held := by
  cases stepped
  rfl

private theorem wallet_issued (state : HostState) (held : List HeldVoucher)
    (after : HostState) (stepped : (walletWire (walletOf unitVouchers)).world.step
      state .heldVouchers held after) :
    ∀ voucher ∈ held, ∃ issuer, paymentPlatform.SignsFor issuer.keypair ∧
      FromIssuer paymentPlatform issuer voucher.voucher := by
  intro voucher member
  rw [walletWire_held stepped] at member
  refine ⟨unitIssuer, paymentPlatform_signs, ?_⟩
  cases issued : unitVouchers with
  | error error =>
      rw [issued] at member
      cases member
  | ok vouchers =>
      rw [issued] at member
      obtain ⟨entry, inVouchers, rfl⟩ := List.mem_map.mp member
      exact ⟨_, _, _, _, _, vouchers, issued,
        List.fst_mem_of_mem_zipIdx inVouchers⟩

theorem picked_payment_settles_hi :
    ∃ payment picked order price credits,
      paidOrder (walletOf unitVouchers) hiOptions =
        .ok (some (payment, some picked, order)) ∧
      requiredPrice creditGateway order = .ok price ∧
      credits.map PickedCredit.held = picked ∧
      ∀ now current commit keys,
        now.toUtc paymentPlatform.localOffset = .ok current →
        (Redeemed (spentTable.run (redeem paymentPlatform
            (termsAt paymentPlatform creditGateway order price now)
            order.payment commit) keys).1 ↔
          Spendable paymentPlatform [gatewayPubkey] current keys credits) := by
  obtain ⟨payment, reserved, order, paid, taken⟩ :=
    @exists_paidOrder (walletOf unitVouchers) hiOptions Option.isSome
      (by decide +kernel)
  obtain ⟨picked, rfl⟩ := Option.isSome_iff_exists.mp taken
  obtain ⟨unpaid, response, again, distinct, arrives, answers, is402, prepares,
    arrivesAgain, admitted⟩ := paidOrder_eq_ok paid
  obtain ⟨price, credits, priced, same, _, decides⟩ :=
    picked_payment_settles (by decide) distinct arrives
      (challengeRun_exec answers) is402 arrivesAgain admitted
      (signingPlatform_sound _ _) wallet_issued (prepareRun_exec prepares)
  exact ⟨payment, picked, order, price, credits, paid, priced, same, decides⟩

end SovereignInference.SipGateway
