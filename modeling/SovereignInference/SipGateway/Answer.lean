import SovereignInference.SipGateway.App
import SovereignInference.SipProtocol.Signable

/-!
# When a request can be answered

Past the commit, the handler can still fail: a string with a lone surrogate has
no hash and no bytes, and an integer may have too many digits to be written.
Here is what exactly has to hold for the answer to be built.
-/

namespace SovereignInference.SipGateway

open Python Effects SipProtocol SipPic

private theorem encodable_format6f (x : Float) : Encodable (format6f x) := by
  unfold format6f nonFiniteText
  dsimp only
  split_ifs <;>
    simp [encodable_natText, encodable_leftPad, isSurrogate]

private theorem encodable_formatAmount (value : Float) :
    Encodable (formatAmount value) := by
  unfold formatAmount
  dsimp only
  split_ifs
  · exact encodable_text _
  · exact encodable_rstrip (encodable_rstrip (encodable_format6f _))

theorem encodable_priceAmount {gateway : Gateway}
    {inputTokens outputTokens : Int} {price : Text}
    (priced : priceAmount gateway inputTokens outputTokens = .ok price) :
    Encodable price := by
  unfold priceAmount at priced
  obtain ⟨input, _, priced⟩ := bind_eq_ok.mp priced
  obtain ⟨output, _, priced⟩ := bind_eq_ok.mp priced
  cases priced
  exact encodable_formatAmount _

theorem encodable_header (value : Option Bytes) (default : String) :
    Encodable (header value default) := by
  cases value with
  | none => exact encodable_text default
  | some bytes => exact encodable_latin1 bytes

variable {P : Platform} {gateway : Gateway} {request : Request} {order : Order}

/-- What an admitted order is made of. -/
structure OrderOf (gateway : Gateway) (request : Request) (body : Dict)
    (order : Order) : Prop where
  model : (body.get "model").asStr = some order.model
  messages : (body.get "messages").asList = some order.messages
  privacyMode : order.privacyMode =
    header request.privacyMode defaultPrivacyMode
  requestId : order.requestId = header request.requestId "anon"
  payment : order.payment = (body.get "sip_payment").asDict.getD []
  allowed : order.model ∈ gateway.allowedModels

theorem readOrder_ok {body : Dict}
    (read : readOrder gateway request body = .ok order) :
    OrderOf gateway request body order := by
  unfold readOrder at read
  split at read
  · rename_i model messages hasModel hasMessages
    simp only [throw_eq_error, pure_eq_ok] at read
    split at read
    · cases read
    · obtain ⟨maxTokens, _, read⟩ := bind_eq_ok.mp read
      by_cases allowed : model ∈ gateway.allowedModels
      · simp only [allowed, not_true_eq_false, if_false] at read
        split_ifs at read <;> cases read
        exact ⟨hasModel, hasMessages, rfl, rfl, rfl, allowed⟩
      · simp [allowed] at read
  · cases read

theorem admission_read
    (admitted : admission gateway request = .ok (.ok order)) :
    ∃ body, request.body = some (.obj body) ∧
      readOrder gateway request body = .ok order := by
  unfold admission at admitted
  obtain ⟨authorized, _, admitted⟩ := bind_eq_ok.mp admitted
  cases authorized with
  | false => cases admitted
  | true =>
      cases hasBody : request.body with
      | none => simp [hasBody] at admitted
      | some body =>
          cases isDict : body.asDict with
          | none => simp [hasBody, isDict] at admitted
          | some fields =>
              simp only [hasBody, isDict, Bool.not_true, Bool.false_eq_true,
                if_false, pure_eq_ok, Except.ok.injEq] at admitted
              refine ⟨fields, ?_, admitted⟩
              rw [Json.asDict_eq_some.mp isDict]

theorem admission_ok
    (admitted : admission gateway request = .ok (.ok order)) :
    ∃ body, request.body = some (.obj body) ∧
      OrderOf gateway request body order := by
  obtain ⟨body, hasBody, read⟩ := admission_read admitted
  exact ⟨body, hasBody, readOrder_ok read⟩

theorem readMaxTokens_error {body : Dict} {refusal : Refusal}
    (refused : readMaxTokens body = .error refusal) : refusal.status = 400 := by
  unfold readMaxTokens at refused
  split at refused
  · split_ifs at refused
    cases refused
    rfl
  · cases refused
    rfl

private theorem readOrder_error {body : Dict} {refusal : Refusal}
    (refused : readOrder gateway request body = .error refusal) :
    refusal.status ≠ 200 := by
  unfold readOrder at refused
  split at refused
  · rename_i model messages hasModel hasMessages
    simp only [throw_eq_error, pure_eq_ok] at refused
    split at refused
    · cases refused
      decide
    · cases reads : readMaxTokens body with
      | error other =>
          simp only [reads, error_bind, Except.error.injEq] at refused
          simp [← refused, readMaxTokens_error reads]
      | ok maxTokens =>
          simp only [reads, ok_bind] at refused
          split_ifs at refused <;> cases refused <;> decide
  · cases refused
    decide

theorem admission_refused {refusal : Refusal}
    (refused : admission gateway request = .ok (.error refusal)) :
    refusal.status ≠ 200 := by
  unfold admission at refused
  obtain ⟨authorized, _, refused⟩ := bind_eq_ok.mp refused
  cases authorized with
  | false =>
      cases refused
      decide
  | true =>
      cases hasBody : request.body with
      | none =>
          simp only [hasBody, Bool.not_true, Bool.false_eq_true, if_false,
            pure_eq_ok, Except.ok.injEq, Except.error.injEq] at refused
          simp [← refused]
      | some body =>
          cases isDict : body.asDict with
          | none =>
              simp only [hasBody, isDict, Bool.not_true, Bool.false_eq_true,
                if_false, pure_eq_ok, Except.ok.injEq,
                Except.error.injEq] at refused
              simp [← refused]
          | some body =>
              simp only [hasBody, isDict, Bool.not_true, Bool.false_eq_true,
                if_false, pure_eq_ok, Except.ok.injEq] at refused
              exact readOrder_error refused

theorem admission_encodable
    (admitted : admission gateway request = .ok (.ok order)) :
    Encodable order.privacyMode ∧ Encodable order.requestId := by
  obtain ⟨body, _, made⟩ := admission_ok admitted
  rw [made.privacyMode, made.requestId]
  exact ⟨encodable_header _ _, encodable_header _ _⟩

/-- What the answer needs of the order, the configuration, the result and the
clock: everything can be encoded and written. -/
structure Answerable (P : Platform) (gateway : Gateway) (order : Order)
    (result : ChatResult) (started completed : DateTime) : Prop where
  content : Encodable result.content
  model : Encodable order.model
  messages : ∀ message ∈ order.messages, message.Clean
  modelManifestHash : Encodable gateway.modelManifestHash
  adapterName : Encodable gateway.adapterName
  priceUnits : Encodable gateway.priceUnits
  inputTokens : result.inputTokens.natAbs < 10 ^ maxStrDigits
  outputTokens : result.outputTokens.natAbs < 10 ^ maxStrDigits
  totalTokens :
    (result.inputTokens + result.outputTokens).natAbs < 10 ^ maxStrDigits
  started : ∃ utc, started.toUtc P.localOffset = .ok utc
  completed : ∃ utc, completed.toUtc P.localOffset = .ok utc

variable {result : ChatResult} {price : Text} {started completed : DateTime}

theorem signedReceipt_isOk (encodablePrice : Encodable price)
    (encodableOrder : Encodable order.privacyMode ∧ Encodable order.requestId) :
    (∃ receipt, signedReceipt P gateway order result price started completed =
        .ok receipt) ↔
      Encodable result.content ∧
      (Encodable order.model ∧ ∀ message ∈ order.messages, message.Clean) ∧
      (∃ utc, started.toUtc P.localOffset = .ok utc) ∧
      (∃ utc, completed.toUtc P.localOffset = .ok utc) ∧
      Encodable gateway.modelManifestHash ∧ Encodable gateway.adapterName ∧
      result.inputTokens.natAbs < 10 ^ maxStrDigits ∧
      result.outputTokens.natAbs < 10 ^ maxStrDigits ∧
      Encodable gateway.priceUnits := by
  have responseHashed := hashResponseBody_isOk result.content
  have requestHashed := hashRequest_isOk (.str order.model)
    (.arr order.messages)
  rw [Json.clean_str, Json.clean_arr] at requestHashed
  rw [← responseHashed, ← requestHashed]
  unfold signedReceipt
  cases response : hashResponseBody result.content with
  | error error => simp
  | ok responseHash =>
      cases request : hashRequest (.str order.model) (.arr order.messages) with
      | error error => simp
      | ok requestHash =>
          have model := (requestHashed.mp ⟨_, request⟩).1
          simp only [ok_bind, Except.ok.injEq, exists_eq', true_and]
          rw [signReceipt_isOk, ReceiptFields.clean_iff]
          have responseClean := encodable_hashResponseBody response
          have requestClean := encodable_hashRequest request
          simp only [receiptFields, publicKeyStr, KeyPair.publicKeyStr,
            encodable_encodePrefixed, encodableOrder, encodablePrice, model,
            responseClean, requestClean, true_and, and_true]

theorem signedReceipt_clean {receipt : Dict}
    (signed : signedReceipt P gateway order result price started completed =
      .ok receipt) : (Json.obj receipt).Clean := by
  unfold signedReceipt at signed
  obtain ⟨responseHash, _, signed⟩ := bind_eq_ok.mp signed
  obtain ⟨requestHash, _, signed⟩ := bind_eq_ok.mp signed
  obtain ⟨unsigned, _, signed⟩ := bind_eq_ok.mp signed
  exact signDocument_clean signed

theorem jsonResponse_isOk (content : Dict) (status : Nat) :
    (∃ response, jsonResponse content status = .ok response) ↔
      (Json.obj content).Clean := by
  rw [← Json.dumpBytes_isOk false]
  unfold jsonResponse
  cases Json.dumpBytes false (.obj content) with
  | error error => simp
  | ok body => simp

/-- What a response built by the handler says. -/
theorem jsonResponse_ok {content : Dict} {status : Nat} {response : Response}
    (built : jsonResponse content status = .ok response) :
    response.content = content ∧ response.status = status := by
  unfold jsonResponse at built
  obtain ⟨body, _, equality⟩ := bind_eq_ok.mp built
  cases equality
  exact ⟨rfl, rfl⟩

theorem paymentRequiredResponse_ok {response : Response}
    (challenged : paymentRequiredResponse gateway price = .ok response) :
    response.status = 402 :=
  (jsonResponse_ok challenged).2

private theorem completion_clean {receipt : Dict}
    (receiptClean : (Json.obj receipt).Clean)
    (requestId : Encodable order.requestId) (model : Encodable order.model)
    (content : Encodable result.content)
    (inputTokens : result.inputTokens.natAbs < 10 ^ maxStrDigits)
    (outputTokens : result.outputTokens.natAbs < 10 ^ maxStrDigits) :
    (Json.obj (completion order result receipt)).Clean ↔
      (result.inputTokens + result.outputTokens).natAbs <
        10 ^ maxStrDigits := by
  have zero : (0 : Int).natAbs < 10 ^ maxStrDigits :=
    Nat.pow_pos (by decide)
  have receiptClean' := (Json.clean_obj receipt).mp receiptClean
  rw [Json.clean_obj]
  simp only [completion, List.mem_cons, List.not_mem_nil, or_false,
    forall_eq_or_imp, forall_eq, encodable_text, encodable_append,
    Json.clean_str, Json.clean_int, Json.clean_arr, Json.clean_obj, requestId,
    model, content, inputTokens, outputTokens, zero, true_and, and_true]
  exact and_iff_left receiptClean'

/-- **The answer** to a charged order is built exactly if it is answerable. -/
theorem answer_isOk (encodablePrice : Encodable price)
    (encodableOrder : Encodable order.privacyMode ∧ Encodable order.requestId) :
    (∃ response, answer (priceAmount gateway) P gateway order (some price) result
        started completed = .ok response) ↔
      Answerable P gateway order result started completed := by
  have signs := @signedReceipt_isOk P gateway order result price started
    completed encodablePrice encodableOrder
  unfold answer receiptPrice
  simp only [ok_bind]
  constructor
  · intro answered
    obtain ⟨response, built⟩ := answered
    obtain ⟨receipt, signed, built⟩ := bind_eq_ok.mp built
    obtain ⟨content, ⟨model, messages⟩, started, completed, manifestHash, name,
      inputTokens, outputTokens, units⟩ := signs.mp ⟨receipt, signed⟩
    have clean := (jsonResponse_isOk _ _).mp ⟨response, built⟩
    rw [completion_clean (signedReceipt_clean signed) encodableOrder.2 model
      content inputTokens outputTokens] at clean
    exact ⟨content, model, messages, manifestHash, name, units, inputTokens,
      outputTokens, clean, started, completed⟩
  · intro answerable
    obtain ⟨receipt, signed⟩ := signs.mpr ⟨answerable.content,
      ⟨answerable.model, answerable.messages⟩, answerable.started,
      answerable.completed, answerable.modelManifestHash,
      answerable.adapterName, answerable.inputTokens, answerable.outputTokens,
      answerable.priceUnits⟩
    rw [signed, ok_bind, jsonResponse_isOk,
      completion_clean (signedReceipt_clean signed) encodableOrder.2
        answerable.model answerable.content answerable.inputTokens
        answerable.outputTokens]
    exact answerable.totalTokens

/-- What an answer is: status 200, the content of the result, and a receipt
signed by the gateway. -/
theorem answer_ok {required : Option Text} {response : Response}
    (answered : answer (priceAmount gateway) P gateway order required result
      started completed = .ok response) :
    response.status = 200 ∧ ∃ price receipt,
      (∀ charged, required = some charged → price = charged) ∧
      signedReceipt P gateway order result price started completed =
        .ok receipt ∧
      response.content = completion order result receipt := by
  unfold answer at answered
  obtain ⟨price, priced, answered⟩ := bind_eq_ok.mp answered
  obtain ⟨receipt, signed, answered⟩ := bind_eq_ok.mp answered
  obtain ⟨content, status⟩ := jsonResponse_ok answered
  refine ⟨status, price, receipt, ?_, signed, content⟩
  intro charged equality
  rw [equality] at priced
  exact (Except.ok.inj priced).symm

end SovereignInference.SipGateway
