import SovereignInference.Effects.Yields
import SovereignInference.SipRouter.Client

/-!
# What attempts are made of

An attempt ends with one of a few labels of its own, or as its response is
judged.  So what holds of every judged response holds of every result.
-/

namespace SovereignInference.SipRouter

open Python Effects SipProtocol SipPic

variable {P : Platform} {options : ChatOptions} {candidate : ProviderEntry}
  {client : HttpClient} {requestId : Text} {α : Type}
  {good : (op : RouterOp) → RouterSig.Ans op → Prop}

theorem yields_lift {result : α → Prop} {outcome : Except PyExc α} :
    (lift outcome).Yields good result ↔
      ∀ value, outcome = .ok value → result value := by
  cases outcome with
  | error error => exact iff_of_true trivial nofun
  | ok value =>
      refine ⟨?_, fun holds => holds value rfl⟩
      rintro holds _ ⟨⟩
      exact holds

/-- A post yields what its answers are. -/
theorem yields_httpPost {path : Text} {headers body : Dict}
    {result : Response → Prop}
    (answers : ∀ response, good (.post client path headers body)
      (.ok response) → result response) :
    (httpPost client path headers body).Yields good result := by
  unfold httpPost
  refine Prog.yields_bind fun _ => ?_
  intro answer isGood
  cases answer with
  | error name => trivial
  | ok response => exact answers response isGood

/-- How an attempt fails apart from its quote and its response. -/
inductive FailsEarly : Text → Prop where
  | unhealthy : FailsEarly "unhealthy"
  | paymentRequired : FailsEarly "payment_required"
  | insufficientFunds : FailsEarly "insufficient_funds"
  | transport (name : Text) : FailsEarly (text "transport_error: " ++ name)

/-- An answer to a completion request of this attempt. -/
def Completes (good : (op : RouterOp) → RouterSig.Ans op → Prop)
    (options : ChatOptions) (client : HttpClient) (requestId : Text)
    (response : Response) : Prop :=
  ∃ payment, good (.post client completionsPath
    (completionHeaders options requestId) (completionBody options payment))
    (.ok response)

/-- A failover has the label of an early failure. -/
def PreparedEarly : Preparation → Prop
  | .failover label => FailsEarly label
  | .pay _ _ => True

private theorem yields_preparePayment (response : Response) :
    (preparePayment P options response candidate requestId).Yields good
      PreparedEarly := by
  unfold preparePayment
  refine Prog.yields_bind fun body => ?_
  split
  · exact .paymentRequired
  · refine Prog.yields_bind fun price => Prog.yields_bind fun unit => ?_
    dsimp only
    split_ifs
    · refine Prog.yields_bind fun held => ?_
      split
      · exact Prog.yields_bind fun _ => trivial
      · split_ifs
        · exact .insufficientFunds
        · trivial
    · split
      · refine Prog.yields_bind fun nonce => Prog.yields_bind fun now => ?_
        exact Prog.yields_bind fun _ => trivial
      · exact .paymentRequired

section

variable {ends : Attempt → Prop} {Quoted : Dict → Prop}
  (early : ∀ label, FailsEarly label → ends (.failed label))

include early

private theorem yields_complete (quote : Option Dict)
    (judged : ∀ response reserved,
      Completes good options client requestId response →
        (judge P options response reserved quote candidate).Yields good ends) :
    (complete P options client candidate requestId quote).Yields good
      ends := by
  have posts : ∀ payment,
      (postCompletion options client requestId payment).Yields good
        (Completes good options client requestId) :=
    fun payment => yields_httpPost fun response isGood => ⟨payment, isGood⟩
  unfold complete
  refine (posts none).bind ?_
  intro response answers
  split_ifs
  · refine (yields_preparePayment response).bind ?_
    intro preparation prepared
    cases preparation with
    | failover label => exact early label prepared
    | pay payment reserved =>
        refine Prog.Yields.bind ?_ fun response answers =>
          judged response reserved answers
        refine (posts (some payment)).tryCatch ?_
        rintro (name | ⟨model, attempts⟩ | error)
        · exact Prog.yields_bind fun _ => trivial
        · trivial
        · trivial
  · exact judged response none answers

/-- **An attempt fails early or ends as it is judged**, with the quote that it
fetched. -/
theorem yields_tryCandidate
    (fetches : options.getQuote = true →
      (fetchQuote P options client requestId).Yields good fun
        | none => ends (.failed "quote_invalid")
        | some quote => Quoted quote)
    (judged : ∀ response reserved quote,
      (options.getQuote = true → quote.isSome = true) →
      (∀ stated, quote = some stated → Quoted stated) →
        Completes good options client requestId response →
          (judge P options response reserved quote candidate).Yields good
            ends) :
    (tryCandidate P options client candidate requestId).Yields good ends := by
  unfold tryCandidate serve
  refine Prog.yields_bind fun _ =>
    Prog.Yields.tryCatch (Prog.yields_bind fun healthy => ?_) ?_
  · split_ifs with _ asks
    · exact early _ .unhealthy
    · refine (fetches asks).bind fun quote fetched => ?_
      cases quote with
      | none => exact fetched
      | some quote =>
          refine yields_complete early (some quote) fun response reserved =>
            judged response reserved (some quote) (fun _ => rfl) ?_
          rintro _ ⟨⟩
          exact fetched
    · exact yields_complete early none fun response reserved =>
        judged response reserved none (fun asked => absurd asked asks) nofun
  · rintro (name | ⟨model, attempts⟩ | error)
    · exact early _ (.transport name)
    · trivial
    · trivial

end

/-- An attempt at one of the candidates. -/
def Attempted (candidates : List ProviderEntry)
    (ends : ProviderEntry → Attempt → Prop) (baseUrl : Text)
    (attempt : Attempt) : Prop :=
  ∃ candidate ∈ candidates, baseUrl = candidate.baseUrl ∧
    ends candidate attempt

/-- The result is that of an attempt, and so is every record but these. -/
structure RoutedFrom (candidates : List ProviderEntry)
    (ends : ProviderEntry → Attempt → Prop) (attempts : List (Text × Text))
    (result : RouteResult) : Prop where
  served : ∃ attempt served,
    Attempted candidates ends result.baseUrl attempt ∧
      attempt.result = some served ∧ result.content = served.content ∧
        result.receipt = served.receipt ∧ result.quote = served.quote
  recorded : ∀ record ∈ result.attempts, record ∈ attempts ∨
    ∃ attempt, Attempted candidates ends record.1 attempt ∧
      record.2 = attempt.label

theorem Attempted.among {ends : ProviderEntry → Attempt → Prop}
    {candidates others : List ProviderEntry} {baseUrl : Text}
    {attempt : Attempt} (attempted : Attempted candidates ends baseUrl attempt)
    (listed : ∀ candidate ∈ candidates, candidate ∈ others) :
    Attempted others ends baseUrl attempt := by
  obtain ⟨candidate, member, same, ended⟩ := attempted
  exact ⟨candidate, listed candidate member, same, ended⟩

theorem yields_tryCandidates {ends : ProviderEntry → Attempt → Prop}
    (candidates : List ProviderEntry) (attempts : List (Text × Text))
    (tries : ∀ candidate ∈ candidates, ∀ client : HttpClient,
      client.baseUrl = candidate.baseUrl →
        (tryCandidate P options client candidate requestId).Yields good
          (ends candidate)) :
    (tryCandidates P options requestId candidates attempts).Yields good
      (RoutedFrom candidates ends attempts) := by
  induction candidates generalizing attempts with
  | nil => trivial
  | cons candidate rest induction =>
      unfold tryCandidates
      refine Prog.Yields.bind (tries candidate List.mem_cons_self _ rfl) ?_
      intro attempt ended
      have attempted : Attempted (candidate :: rest) ends candidate.baseUrl
          attempt := ⟨candidate, List.mem_cons_self, rfl, ended⟩
      have recorded : ∀ record ∈ attempts ++ [(candidate.baseUrl,
          attempt.label)], record ∈ attempts ∨
            ∃ attempt, Attempted (candidate :: rest) ends record.1 attempt ∧
              record.2 = attempt.label := by
        intro record member
        rcases List.mem_append.mp member with before | last
        · exact .inl before
        · cases List.mem_singleton.mp last
          exact .inr ⟨attempt, attempted, rfl⟩
      dsimp only
      split
      · rename_i served isServed
        exact Prog.yields_bind fun _ =>
          ⟨⟨attempt, served, attempted, isServed, rfl, rfl, rfl⟩, recorded⟩
      · have later := induction (attempts ++ [(candidate.baseUrl,
          attempt.label)]) fun other member =>
            tries other (List.mem_cons_of_mem _ member)
        have listed : ∀ other ∈ rest, other ∈ candidate :: rest :=
          fun _ => List.mem_cons_of_mem _
        refine later.mono ?_
        intro result routed
        obtain ⟨attempt', served, attempted', same⟩ := routed.served
        refine ⟨⟨attempt', served, attempted'.among listed, same⟩, ?_⟩
        intro record member
        rcases routed.recorded record member with before |
          ⟨other, attempted', same⟩
        · exact recorded record before
        · exact .inr ⟨other, attempted'.among listed, same⟩

theorem candidatesOf_mem {registry candidates : List ProviderEntry}
    (resolves : candidatesOf options registry = .ok candidates)
    (member : candidate ∈ candidates) : candidate ∈ registry := by
  obtain ⟨ranked, isRanked, resolves⟩ := bind_eq_ok.mp resolves
  cases resolves
  refine resolve_mem isRanked ?_
  cases limit : options.maxProviders with
  | none =>
      rw [limit] at member
      exact member
  | some count =>
      rw [limit] at member
      exact List.mem_of_mem_take member

/-- **Whatever holds of every attempt holds of what is returned.** -/
theorem yields_chat {ends : Text → ProviderEntry → Attempt → Prop}
    (registry : List ProviderEntry)
    (tries : ∀ requestId, ∀ candidate ∈ registry, ∀ client : HttpClient,
      client.baseUrl = candidate.baseUrl →
        (tryCandidate P options client candidate requestId).Yields good
          (ends requestId candidate)) :
    (chat P options registry).Yields good fun result =>
      ∃ requestId, RoutedFrom registry (ends requestId) [] result := by
  unfold chat
  refine (yields_lift.mpr fun candidates resolves => resolves).bind ?_
  intro candidates resolves
  refine Prog.yields_bind fun requestId => ?_
  have listed : ∀ candidate ∈ candidates, candidate ∈ registry :=
    fun candidate => candidatesOf_mem resolves
  have routed := @yields_tryCandidates P options requestId good
    (ends requestId) candidates [] fun candidate member =>
      tries requestId candidate (listed candidate member)
  refine routed.mono fun result routed => ⟨requestId, ?_, ?_⟩
  · obtain ⟨attempt, served, attempted, rest⟩ := routed.served
    exact ⟨attempt, served, attempted.among listed, rest⟩
  · intro record member
    refine (routed.recorded record member).imp_right ?_
    rintro ⟨attempt, attempted, same⟩
    exact ⟨attempt, attempted.among listed, same⟩

end SovereignInference.SipRouter
