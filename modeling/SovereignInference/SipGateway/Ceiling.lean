import SovereignInference.SipGateway.Bookkeeping
import SovereignInference.SipGateway.Delivery
import SovereignInference.SipGateway.Runs

/-!
# A quote is a ceiling

Words and characters are two measures of a prompt, and words are never more
than characters.  So whatever a request is charged, by its words or by the
tokens of its runtime, stays under the price that was quoted for the caps.
-/

namespace SovereignInference.SipGateway

open Python Effects SipProtocol SipPic

/-- `sum(len(m["content"]) for m in messages)`. -/
def totalChars (messages : List Json) : Nat :=
  (messages.map fun m => (messageContent m).length).sum

theorem billedInput_le (order : Order) :
    billedInput order ≤ totalChars order.messages := by
  have words : (order.messages.map fun m =>
      (split (messageContent m)).length).sum ≤ totalChars order.messages := by
    apply List.sum_le_sum
    intro message _
    exact length_split_le _
  unfold billedInput
  exact_mod_cast words

/-- The caps that an admitted order keeps. -/
theorem readOrder_caps {gateway : Gateway} {request : Request} {body : Dict}
    {order : Order} (read : readOrder gateway request body = .ok order) :
    readMaxTokens body = .ok order.maxTokens ∧
      (totalChars order.messages : Int) ≤ gateway.maxInputChars := by
  unfold readOrder at read
  split at read
  · simp only [throw_eq_error, pure_eq_ok] at read
    split at read
    · cases read
    · obtain ⟨maxTokens, isLimit, read⟩ := bind_eq_ok.mp read
      split_ifs at read
      all_goals cases read
      rename_i large
      exact ⟨isLimit, not_lt.mp large⟩
  · cases read

/-- A price is at most another: as numbers, and as decimals wherever `Decimal`
can hold them. -/
structure AtMost (price limit : Text) : Prop where
  numbers : ∃ a b, decimalOf price = some a ∧ decimalOf limit = some b ∧ a ≤ b
  decimals : ∀ x y, Decimal.parse price = .ok x →
    Decimal.parse limit = .ok y → x.le y = .ok true

private theorem atMost_of_numbers {price limit : Text} {a b : ℚ}
    (first : decimalOf price = some a) (second : decimalOf limit = some b)
    (order : a ≤ b) : AtMost price limit :=
  ⟨⟨a, b, first, second, order⟩, fun _ _ parsed parsed' =>
    decimalOf_le first second order parsed parsed'⟩

theorem formatExact_atMost {x y : ℚ} (order : x ≤ y) :
    AtMost (formatExact x) (formatExact y) := by
  apply atMost_of_numbers (decimalOf_formatExact x) (decimalOf_formatExact y)
  have scaled : x * 10 ^ 6 ≤ y * 10 ^ 6 :=
    mul_le_mul_of_nonneg_right order (by positivity)
  have rounded : (Arithmetic.halfEven (x * 10 ^ 6) : ℚ) ≤
      Arithmetic.halfEven (y * 10 ^ 6) :=
    Int.cast_le.mpr (Arithmetic.halfEven_mono scaled)
  exact div_le_div_of_nonneg_right rounded (by positivity)

/-- The rates of a gateway are non-negative where they are numbers. -/
structure RatesNonneg (gateway : Gateway) : Prop where
  input : ∀ rate, parseExact gateway.inputPer1m = .ok rate → 0 ≤ rate
  output : ∀ rate, parseExact gateway.outputPer1m = .ok rate → 0 ≤ rate

/-- **Prices grow with the tokens.** -/
theorem priceExact_atMost {gateway : Gateway} (rates : RatesNonneg gateway)
    {input output maxInput maxOutput : Int} {price limit : Text}
    (priced : priceExact gateway input output = .ok price)
    (limited : priceExact gateway maxInput maxOutput = .ok limit)
    (inputs : input ≤ maxInput) (outputs : output ≤ maxOutput) :
    AtMost price limit := by
  obtain ⟨inputRate, isInput, priced⟩ := bind_eq_ok.mp priced
  obtain ⟨outputRate, isOutput, priced⟩ := bind_eq_ok.mp priced
  simp only [priceExact, isInput, isOutput, ok_bind, pure_eq_ok] at limited
  cases priced
  cases limited
  have inputCost : (input / 10 ^ 6 * inputRate : ℚ) ≤
      maxInput / 10 ^ 6 * inputRate := by
    have millions : (input / 10 ^ 6 : ℚ) ≤ maxInput / 10 ^ 6 :=
      div_le_div_of_nonneg_right (Int.cast_le.mpr inputs) (by positivity)
    exact mul_le_mul_of_nonneg_right millions (rates.input _ isInput)
  have outputCost : (output / 10 ^ 6 * outputRate : ℚ) ≤
      maxOutput / 10 ^ 6 * outputRate := by
    have millions : (output / 10 ^ 6 : ℚ) ≤ maxOutput / 10 ^ 6 :=
      div_le_div_of_nonneg_right (Int.cast_le.mpr outputs) (by positivity)
    exact mul_le_mul_of_nonneg_right millions (rates.output _ isOutput)
  exact formatExact_atMost (add_le_add inputCost outputCost)

section

variable {P : Platform} {gateway : Gateway} {S : Type}
  {world : World GatewaySig S} {state final : S}
  {request : Request} {response : Response}

/-- The price and the limit that a quote commits to. -/
theorem signedQuote_commits {pricing : Pricing} {order : QuoteOrder}
    {issued : DateTime} {signed : Dict}
    (done : signedQuote pricing P gateway order issued = .ok signed) :
    ∃ maxPrice : Text,
      pricing gateway.maxInputChars order.maxOutputTokens = .ok maxPrice ∧
      signed.get "max_output_tokens" = .int order.maxOutputTokens ∧
      signed.get "max_price" = .str maxPrice := by
  obtain ⟨maxPrice, priced, done⟩ := bind_eq_ok.mp done
  obtain ⟨expires, _, done⟩ := bind_eq_ok.mp done
  obtain ⟨unsigned, isUnsigned, done⟩ := bind_eq_ok.mp done
  obtain ⟨message, _, done⟩ := bind_eq_ok.mp done
  obtain ⟨issuedAt, _, isUnsigned⟩ := bind_eq_ok.mp isUnsigned
  obtain ⟨expiresAt, _, isUnsigned⟩ := bind_eq_ok.mp isUnsigned
  refine ⟨maxPrice, priced, ?_⟩
  cases done
  cases isUnsigned
  unfold quoteFields
  cases order.privacyMode with
  | none => exact ⟨rfl, rfl⟩
  | some privacyMode => exact ⟨rfl, rfl⟩

/-- The runtime reports at most the characters of the prompt as input and the
limit as output. -/
def Measured (world : World GatewaySig S) : Prop :=
  ∀ before model messages maxTokens result after,
    world.step before (.inr (.chat model messages maxTokens)) (.ok result)
      after →
    result.inputTokens ≤ totalChars messages ∧
      result.outputTokens ≤ maxTokens

/-- **The quote is a ceiling.**  In exact arithmetic no receipt states more than
any quote of the same gateway for at least as many tokens, whatever happens
around and between the two requests. -/
theorem quote_is_ceiling {T : Type} {quoting : World GatewaySig T}
    {issued signed : T} {asked : Request} {quoted : Response} {body : Dict}
    {limit : Int} (rates : RatesNonneg gateway)
    (measured : gateway.requirePayment = false → Measured world)
    (quotes : Exec quoting issued
      (quote (priceExact gateway) P gateway asked) signed (.ok quoted))
    (isQuote : quoted.status = 200)
    (isLimit : quoted.content.get "max_output_tokens" = .int limit)
    (answers : Exec world state
      (chatCompletionsBy (priceExact gateway) P gateway request) final
      (.ok response))
    (isAnswer : response.status = 200)
    (hasBody : request.body = some (.obj body))
    (limited : ∀ maxTokens, readMaxTokens body = .ok maxTokens →
      maxTokens ≤ limit) :
    ∃ (receipt : Dict) (price maxPrice : Text),
      response.content.get "sip_receipt" = .obj receipt ∧
      receipt.get "price_amount" = .str price ∧
      quoted.content.get "max_price" = .str maxPrice ∧
      AtMost price maxPrice := by
  obtain ⟨quoteOrder, moment, _, signedAt⟩ := quote_made quotes isQuote
  obtain ⟨maxPrice, quotedPrice, sameLimit, isMaxPrice⟩ :=
    signedQuote_commits signedAt
  obtain rfl : quoteOrder.maxOutputTokens = limit :=
    Json.int.inj (sameLimit.symm.trans isLimit)
  obtain ⟨order, result, required, price, receipt, started, completed,
    admitted, reported, priced, isPrice, receiptSigned, content⟩ :=
    completion_made answers isAnswer
  refine ⟨receipt, price, maxPrice, ?_, (signedReceipt_price receiptSigned).1,
    isMaxPrice, ?_⟩
  · rw [content]
    rfl
  obtain ⟨read, isBody, orderRead⟩ := admission_read admitted
  obtain rfl : read = body := by
    rw [hasBody] at isBody
    exact (Json.obj.inj (Option.some.inj isBody)).symm
  obtain ⟨isTokens, inputCap⟩ := readOrder_caps orderRead
  have outputs := limited _ isTokens
  cases required with
  | some charged =>
      obtain ⟨_, chargedPrice⟩ := priced
      cases isPrice
      have words := billedInput_le order
      exact priceExact_atMost rates chargedPrice quotedPrice
        (words.trans inputCap) outputs
  | none =>
      obtain ⟨before, after, stepped⟩ := reported
      obtain ⟨inputs, few⟩ := measured priced _ _ _ _ _ _ stepped
      exact priceExact_atMost rates isPrice quotedPrice
        (inputs.trans inputCap) (few.trans outputs)

end

def quoteRequest : Request where
  authorization := none
  privacyMode := none
  requestId := none
  body := some (.obj [("request_id", .str "r1"), ("model", .str "m"),
    ("max_output_tokens", .int 1)])

def quoteRun : Except PyExc Response × HostState :=
  answeringHost.handler.run (quote (priceExact payingGateway)
    gatewayTable.platform payingGateway quoteRequest) freshState

def pricedRun : Except PyExc Response × HostState :=
  answeringHost.handler.run (chatCompletionsBy (priceExact payingGateway)
    gatewayTable.platform payingGateway (paidRequest "hi")) freshState

theorem payingGateway_rates : RatesNonneg payingGateway := by
  have million : ∀ rate, parseExact "1000000" = .ok rate → 0 ≤ rate := by
    have read : (parseExact "1000000").toOption.all (0 ≤ ·) = true := by
      decide +kernel
    intro rate isRate
    rw [isRate] at read
    exact of_decide_eq_true read
  exact ⟨million, million⟩

def isOne : Json → Bool
  | .int limit => limit = 1
  | _ => false

theorem isOne_eq {value : Json} (one : isOne value = true) : value = .int 1 := by
  cases value with
  | int limit => rw [of_decide_eq_true one]
  | _ => cases one

private theorem exists_ok {α : Type} {outcome : Except PyExc α}
    {holds : α → Bool} (satisfied : outcome.toOption.any holds = true) :
    ∃ value, outcome = .ok value ∧ holds value = true := by
  cases outcome with
  | error error => cases satisfied
  | ok value => exact ⟨value, rfl, satisfied⟩

theorem quote_is_ceiling_hi :
    ∃ quoted response, quoteRun.1 = .ok quoted ∧ pricedRun.1 = .ok response ∧
      ∃ (receipt : Dict) (price maxPrice : Text),
        response.content.get "sip_receipt" = .obj receipt ∧
        receipt.get "price_amount" = .str price ∧
        quoted.content.get "max_price" = .str maxPrice ∧
        AtMost price maxPrice := by
  have quoteMade : quoteRun.1.toOption.any (fun quoted =>
      quoted.status = 200 && isOne (quoted.content.get "max_output_tokens")) =
      true := by
    decide +kernel
  have served : pricedRun.1.toOption.any (·.status = 200) = true := by
    decide +kernel
  obtain ⟨quoted, quotes, isQuote⟩ := exists_ok quoteMade
  obtain ⟨response, answers, isAnswer⟩ := exists_ok served
  rw [Bool.and_eq_true, decide_eq_true_iff] at isQuote
  rw [decide_eq_true_iff] at isAnswer
  refine ⟨quoted, response, quotes, answers, ?_⟩
  have quoteExec := answeringHost.handler.exec_run
    (quote (priceExact payingGateway) gatewayTable.platform payingGateway
      quoteRequest) freshState
  have answerExec := answeringHost.handler.exec_run
    (chatCompletionsBy (priceExact payingGateway) gatewayTable.platform
      payingGateway (paidRequest "hi")) freshState
  change Exec _ _ _ _ quoteRun.1 at quoteExec
  change Exec _ _ _ _ pricedRun.1 at answerExec
  rw [quotes] at quoteExec
  rw [answers] at answerExec
  have tokens : ∀ maxTokens, readMaxTokens [("model", .str "m"),
      ("messages", .arr [.obj [("role", .str "user"), ("content", .str "hi")]]),
      ("max_tokens", .int 1), ("sip_payment", .obj assertionPayment)] =
        .ok maxTokens → maxTokens ≤ 1 := by
    intro maxTokens read
    cases read
    exact le_rfl
  exact quote_is_ceiling payingGateway_rates nofun quoteExec isQuote.1
    (isOne_eq isQuote.2) answerExec isAnswer rfl tokens

end SovereignInference.SipGateway
