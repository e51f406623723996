import SovereignInference.SipGateway.Answer
import SovereignInference.SipGateway.Quote

/-!
# Where the answers come from

Whatever the surroundings do, an answer with status 200 was made at the end of
the handler: a quote from the order it was asked for, a completion from an
admitted order and the result of the runtime.
-/

namespace SovereignInference.SipGateway

open Python Effects SipProtocol SipPic

section

variable {P : Platform} {gateway : Gateway} {pricing : Pricing}
  {S : Type} {world : World GatewaySig S} {state final : S}
  {request : Request} {response : Response}

theorem refusal_not_ok {refusal : Refusal} (other : refusal.status ≠ 200)
    (refused : Exec world state (Prog.ofExcept refusal.response) final
      (.ok response)) : response.status ≠ 200 := by
  have built := (exec_ofExcept refused).symm
  rw [(jsonResponse_ok built).2]
  exact other

private theorem readQuoteOrder_error {body : Dict} {refusal : Refusal}
    (refused : readQuoteOrder gateway body = .error refusal) :
    refusal.status ≠ 200 := by
  unfold readQuoteOrder at refused
  split at refused
  · split_ifs at refused <;> cases refused <;> decide
  · cases refused
    decide

private theorem quoteAdmission_refused {refusal : Refusal}
    (refused : quoteAdmission gateway request = .ok (.error refusal)) :
    refusal.status ≠ 200 := by
  unfold quoteAdmission at refused
  obtain ⟨authorized, _, refused⟩ := bind_eq_ok.mp refused
  cases authorized with
  | false =>
      cases refused
      decide
  | true =>
      simp only [Bool.not_true, Bool.false_eq_true, if_false] at refused
      split at refused
      · cases refused
        decide
      · split at refused
        · cases refused
          decide
        · exact readQuoteOrder_error (Except.ok.inj refused)

/-- How a quote is made. -/
theorem quote_made
    (ran : Exec world state (quote pricing P gateway request) final
      (.ok response)) (isQuote : response.status = 200) :
    ∃ order issued, quoteAdmission gateway request = .ok (.ok order) ∧
      signedQuote pricing P gateway order issued = .ok response.content := by
  rcases exec_bind ran with ⟨_, _, failed⟩ | ⟨admitted, middle, admits, ran⟩
  · cases failed
  have isAdmitted := (exec_ofExcept admits).symm
  cases admitted with
  | error refusal =>
      exact absurd isQuote
        (refusal_not_ok (quoteAdmission_refused isAdmitted) ran)
  | ok order =>
      rcases exec_bind ran with ⟨_, _, failed⟩ | ⟨issued, _, _, ran⟩
      · cases failed
      have built := (exec_ofExcept ran).symm
      obtain ⟨signed, isSigned, built⟩ := bind_eq_ok.mp built
      refine ⟨order, issued, isAdmitted, ?_⟩
      rw [isSigned, (jsonResponse_ok built).1]

theorem exec_challenge {price : Text}
    (ran : Exec world state
      (Prog.ofExcept (paymentRequiredResponse gateway price)) final
      (.ok response)) : response.status = 402 :=
  paymentRequiredResponse_ok (exec_ofExcept ran).symm

/-- What a verified payment leaves to be paid. -/
def PricedBy (pricing : Pricing) (gateway : Gateway) (order : Order) :
    Option Text → Prop
  | none => gateway.requirePayment = false
  | some price => gateway.requirePayment = true ∧
      pricing (billedInput order) order.maxTokens = .ok price

theorem exec_verifyPaymentBy {order : Order}
    {verified : Except Response (Option Text)}
    (ran : Exec world state (verifyPayment pricing P gateway order) final
      (.ok verified)) :
    (∃ challenge, verified = .error challenge ∧ challenge.status = 402) ∨
      ∃ required, verified = .ok required ∧
        PricedBy pricing gateway order required := by
  unfold verifyPayment at ran
  cases paying : gateway.requirePayment with
  | false =>
      simp only [paying, Bool.not_false, if_true] at ran
      cases ran
      exact .inr ⟨none, rfl, paying⟩
  | true =>
      simp only [paying, Bool.not_true, Bool.false_eq_true, if_false,
        Prog.bind_eq] at ran
      rcases exec_bind ran with ⟨_, _, failed⟩ | ⟨price, _, prices, ran⟩
      · cases failed
      have isPrice := (exec_ofExcept prices).symm
      rcases exec_bind ran with ⟨_, _, failed⟩ | ⟨moment, _, _, ran⟩
      · cases failed
      rcases exec_bind ran with ⟨_, _, failed⟩ | ⟨check, _, _, ran⟩
      · cases failed
      cases passed : check.ok with
      | true =>
          simp only [passed, if_true] at ran
          cases ran
          exact .inr ⟨some price, rfl, paying, isPrice⟩
      | false =>
          simp only [passed, Bool.false_eq_true, if_false] at ran
          rcases exec_bind ran with ⟨_, _, failed⟩ | ⟨challenge, _, built, ran⟩
          · cases failed
          cases ran
          exact .inl ⟨challenge, rfl, exec_challenge built⟩

theorem exec_commitPayment {order : Order} {required : Option Text}
    {challenge : Response}
    (ran : Exec world state (commitPayment P gateway order required) final
      (.ok (some challenge))) : challenge.status = 402 := by
  cases required with
  | none => cases ran
  | some price =>
      unfold commitPayment at ran
      rcases exec_bind ran with ⟨_, _, failed⟩ | ⟨moment, _, _, ran⟩
      · cases failed
      rcases exec_bind ran with ⟨_, _, failed⟩ | ⟨committed, _, _, ran⟩
      · cases failed
      cases passed : committed.ok with
      | true =>
          simp only [passed, if_true] at ran
          rcases exec_bind ran with ⟨_, _, failed⟩ | ⟨_, _, _, ran⟩
          · cases failed
          · cases ran
      | false =>
          simp only [passed, Bool.false_eq_true, if_false] at ran
          rcases exec_bind ran with ⟨_, _, failed⟩ | ⟨_, _, built, ran⟩
          · cases failed
          · cases ran
            exact exec_challenge built

/-- The runtime was asked for this order and gave this result. -/
def Reported (world : World GatewaySig S) (order : Order)
    (result : ChatResult) : Prop :=
  ∃ before after, world.step before
    (.inr (.chat order.model order.messages order.maxTokens)) (.ok result) after

private theorem exec_chat {model : Text} {messages : List Json}
    {maxTokens : Int} {answered : Except PyExc ChatResult}
    (ran : Exec world state (chat model messages maxTokens) final
      (.ok answered)) :
    world.step state (.inr (.chat model messages maxTokens)) answered
      final := by
  cases ran with
  | call stepped returned =>
      cases returned
      exact stepped

private theorem exec_serveBy {order : Order} {required : Option Text}
    (ran : Exec world state (serve pricing P gateway order required) final
      (.ok response)) (isAnswer : response.status = 200) :
    ∃ result started completed, Reported world order result ∧
      answer pricing P gateway order required result started completed =
        .ok response := by
  unfold serve at ran
  rcases exec_bind ran with ⟨_, _, failed⟩ | ⟨started, _, _, ran⟩
  · cases failed
  rcases exec_bind ran with ⟨_, _, failed⟩ | ⟨answered, _, chats, ran⟩
  · cases failed
  have reported := exec_chat chats
  cases answered with
  | error error =>
      have other : (⟨502, "runtime error serving the model"⟩ :
          Refusal).status ≠ 200 := by decide
      exact absurd isAnswer (refusal_not_ok other ran)
  | ok result =>
      rcases exec_bind ran with ⟨_, _, failed⟩ | ⟨completed, _, _, ran⟩
      · cases failed
      rcases exec_bind ran with ⟨_, _, failed⟩ | ⟨challenge, _, commits, ran⟩
      · cases failed
      cases challenge with
      | some challenge =>
          cases ran
          rw [exec_commitPayment commits] at isAnswer
          exact absurd isAnswer (by decide)
      | none =>
          exact ⟨result, started, completed, ⟨_, _, reported⟩,
            (exec_ofExcept ran).symm⟩

/-- How a completion is made: its order, its result, its price and its
receipt. -/
theorem completion_made
    (ran : Exec world state (chatCompletionsBy pricing P gateway request)
      final (.ok response)) (isAnswer : response.status = 200) :
    ∃ order result required price receipt started completed,
      admission gateway request = .ok (.ok order) ∧
      Reported world order result ∧
      PricedBy pricing gateway order required ∧
      receiptPrice pricing required result = .ok price ∧
      signedReceipt P gateway order result price started completed =
        .ok receipt ∧
      response.content = completion order result receipt := by
  rcases exec_bind ran with ⟨_, _, failed⟩ | ⟨admitted, _, admits, ran⟩
  · cases failed
  have isAdmitted := (exec_ofExcept admits).symm
  cases admitted with
  | error refusal =>
      exact absurd isAnswer (refusal_not_ok (admission_refused isAdmitted) ran)
  | ok order =>
      have handled : ∃ before, Exec world before
          (handleOrder pricing P gateway order) final (.ok response) := by
        by_cases limited : gateway.rateLimited = true
        · simp only [limited, if_true] at ran
          rcases exec_bind ran with ⟨_, _, failed⟩ | ⟨allowed, middle, _, ran⟩
          · cases failed
          cases allowed with
          | true => exact ⟨_, ran⟩
          | false =>
              have other : (⟨429, "rate limited"⟩ : Refusal).status ≠ 200 := by
                decide
              exact absurd isAnswer (refusal_not_ok other ran)
        · simp only [limited, Bool.false_eq_true, if_false] at ran
          exact ⟨_, ran⟩
      obtain ⟨before, ran⟩ := handled
      rcases exec_bind ran with ⟨_, _, failed⟩ | ⟨verified, _, verifies, ran⟩
      · cases failed
      rcases exec_verifyPaymentBy verifies with
        ⟨challenge, rfl, status⟩ | ⟨required, rfl, priced⟩
      · cases ran
        rw [status] at isAnswer
        exact absurd isAnswer (by decide)
      · obtain ⟨result, started, completed, reported, answered⟩ :=
          exec_serveBy ran isAnswer
        obtain ⟨price, isPrice, answered⟩ := bind_eq_ok.mp answered
        obtain ⟨receipt, signed, built⟩ := bind_eq_ok.mp answered
        exact ⟨order, result, required, price, receipt, started, completed,
          isAdmitted, reported, priced, isPrice, signed,
          (jsonResponse_ok built).1⟩

end

end SovereignInference.SipGateway
