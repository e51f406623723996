import SovereignInference.Python.JsonText
import SovereignInference.SinNode.Http
import SovereignInference.SipPolicy.Soundness
import SovereignInference.SipRouter.Answers
import SovereignInference.SipRouter.Guarantees

/-!
# The chat endpoint of the proxy

A request is answered from the network through the routing client, over the
providers that a policy permits.  What an OpenAI-compatible client reads of the
answer, at once or from a stream, is what a provider signed a receipt for.
-/

namespace SovereignInference.SipOpenaiProxy

open Python Effects SipProtocol SipPic SipPolicy SipRouter
open Python.Json (DistinctKeys distinct_obj)

inductive MessageContent where
  | null
  | str (value : Text)
  | parts (parts : List Dict)

structure ChatMessage where
  role : Text
  content : MessageContent

/-- A validated request. -/
structure ChatRequest where
  model : Text
  messages : List ChatMessage
  maxTokens : Option Int
  stream : Bool

section

variable (P : Platform)

/-- `_text_of`. -/
def textOf : MessageContent → Except PyExc Text
  | .null => .ok []
  | .str value => .ok value
  | .parts parts => do
      let texts ← (parts.filter fun part =>
          (part.get "type").isStr "text").mapM fun part =>
        ((part.find "text").getD (.str [])).toStr P.isPrintable
      return texts.flatten

def messageJson (message : ChatMessage) : Except PyExc Json := do
  return .obj [("role", .str message.role),
    ("content", .str (← textOf P message.content))]

/-- What the routes are mounted with. -/
structure Proxy where
  apiKey : Option Text
  defaultMaxTokens : Int
  wallet : Bool
  /-- The token for providers. -/
  token : Option Text

/-- The providers of `build_backend`. -/
def permittedEntries (policy : Option Policy)
    (getScore : Option (Text → Option Float))
    (registry : List ProviderEntry) : Except PyExc (List ProviderEntry) :=
  match policy with
  | none => .ok registry
  | some policy =>
      policy.filterEntries P ProviderEntry.manifest getScore registry

/-- `_authorized`. -/
def proxyAuthorized (apiKey : Option Text) (authorization : Option Bytes) :
    Except PyExc Bool :=
  match apiKey with
  | none => .ok true
  | some apiKey =>
      let (scheme, presented) :=
        partition (authorization.elim [] latin1) 0x20
      if asciiLower scheme = "bearer" then do
        return (← encodeUtf8 presented) = (← encodeUtf8 apiKey)
      else .ok false

/-- `_error`. -/
def errorResponse (message kind : Text) (status : Int) :
    Except PyExc Http.Response :=
  Http.jsonResponse status (.obj [("error", .obj [("message", .str message),
    ("type", .str kind)])])

def unauthorized : Except PyExc Http.Response :=
  errorResponse "missing or invalid API key" "unauthorized" 401

/-- `str` of a `NoProviderAvailable`. -/
def noProviderText (model : Text) (attempts : List (Text × Text)) : Text :=
  let quoted := Json.strRepr P.isPrintable model
  if attempts = [] then
    text "no provider in the registry serves model " ++ quoted
  else
    let tried := attempts.map fun (baseUrl, outcome) =>
      baseUrl ++ text " (" ++ outcome ++ text ")"
    text "no provider could serve model " ++ quoted ++ text "; tried: " ++
      Json.join ", " tried

def noProvider (model : Text) (attempts : List (Text × Text)) :
    Except PyExc Http.Response :=
  errorResponse (text "no provider available for model " ++
    Json.strRepr P.isPrintable model ++ text ": " ++
      noProviderText P model attempts) "no_provider" 502

/-- `_usage`. -/
def usage (receipt : Json) : Except PyExc Json := do
  let prompt ← SinNode.tokensAt receipt "input_tokens"
  let completion ← SinNode.tokensAt receipt "output_tokens"
  return .obj [("prompt_tokens", .int prompt),
    ("completion_tokens", .int completion),
    ("total_tokens", .int (prompt + completion))]

/-- When a completion was created, and its random number of 128 bits. -/
structure Stamp where
  created : Int
  uuid : Nat

/-- `_completion_id`. -/
def completionId (stamp : Stamp) : Text :=
  text "chatcmpl-" ++ Json.hexDigits 32 stamp.uuid

/-- The body of a completion that is not streamed. -/
def completionJson (stamp : Stamp) (model : Text) (result : RouteResult) :
    Except PyExc Json := do
  let usage ← usage result.receipt
  return .obj [("id", .str (completionId stamp)),
    ("object", .str "chat.completion"), ("created", .int stamp.created),
    ("model", .str model),
    ("choices", .arr [.obj [("index", .int 0),
      ("message", .obj [("role", .str "assistant"),
        ("content", .str result.content)]),
      ("finish_reason", .str "stop")]]),
    ("usage", usage),
    ("sip", .obj [("provider_pubkey", result.providerPubkey),
      ("base_url", .str result.baseUrl), ("receipt_verified", .bool true),
      ("receipt", result.receipt)])]

/-- A chunk of a stream. -/
def chunkJson (stamp : Stamp) (model : Text) (delta : Dict) (finish : Json) :
    Json :=
  .obj [("id", .str (completionId stamp)),
    ("object", .str "chat.completion.chunk"), ("created", .int stamp.created),
    ("model", .str model),
    ("choices", .arr [.obj [("index", .int 0), ("delta", .obj delta),
      ("finish_reason", finish)]])]

def chunk (stamp : Stamp) (model : Text) (delta : Dict) (finish : Json) :
    Except PyExc Bytes := do
  encodeUtf8 (text "data: " ++
    (← Json.dumps (chunkJson stamp model delta finish)) ++ [0x0A, 0x0A])

/-- `_sse`. -/
def sse (stamp : Stamp) (model content : Text) : Except PyExc Bytes := do
  let role ← chunk stamp model [("role", .str "assistant")] .null
  let content ← chunk stamp model [("content", .str content)] .null
  let stop ← chunk stamp model [] (.str "stop")
  return role ++ content ++ stop ++ ascii "data: [DONE]\n\n"

/-- The answer that a route result is made into. -/
def completion (stamp : Stamp) (request : ChatRequest) (result : RouteResult) :
    Except PyExc Http.Response := do
  if request.stream then
    return ⟨200, "text/event-stream; charset=utf-8",
      ← sse stamp request.model result.content⟩
  else
    Http.jsonResponse 200 (← completionJson stamp request.model result)

/-- `req.max_tokens or default_max_tokens` -/
def maxTokensOf (proxy : Proxy) (request : ChatRequest) : Int :=
  match request.maxTokens with
  | some maxTokens => if maxTokens = 0 then proxy.defaultMaxTokens else maxTokens
  | none => proxy.defaultMaxTokens

def chatOptions (proxy : Proxy) (request : ChatRequest)
    (messages : List Json) : ChatOptions where
  model := request.model
  messages := messages
  maxTokens := maxTokensOf proxy request
  wallet := proxy.wallet
  token := proxy.token

/-- `chat`, or the attempts if no provider serves. -/
def tryChat (options : ChatOptions) (providers : List ProviderEntry) :
    RouterProg (Except (Text × List (Text × Text)) RouteResult) :=
  ((chat P options providers).bind fun result => .ret (.ok result)).tryCatch
    fun
    | .noProviderAvailable model attempts => .ret (.error (model, attempts))
    | error => .raise error

def chatCompletions (proxy : Proxy) (providers : List ProviderEntry)
    (stamp : Stamp) (authorization : Option Bytes) (request : ChatRequest) :
    RouterProg Http.Response := do
  if !(← lift (proxyAuthorized proxy.apiKey authorization)) then
    lift unauthorized
  else
    let messages ← lift (request.messages.mapM (messageJson P))
    match ← tryChat P (chatOptions proxy request messages) providers with
    | .error (model, attempts) => lift (noProvider P model attempts)
    | .ok result => lift (completion stamp request result)

end

variable {P : Platform} {options : ChatOptions} {candidate : ProviderEntry}
  {depth : Nat}

/-- The body is JSON that was read. -/
def Received (depth : Nat) (response : SipRouter.Response) : Prop :=
  ∀ value, response.json = .ok value →
    value.DistinctKeys ∧ Json.nesting value ≤ depth

def AnswerReceived (depth : Nat) (op : RouterOp) (answer : RouterSig.Ans op) :
    Prop :=
  match op, answer with
  | .get _ _, .ok response => Received depth response
  | .post _ _ _ _, .ok response => Received depth response
  | _, _ => True

/-- The receipt is part of what was read, or there is none. -/
def Carried (depth : Nat) (receipt : Json) : Prop :=
  receipt.DistinctKeys ∧ (Json.nesting receipt < depth ∨ receipt = .obj [])

abbrev Yielding (depth : Nat) {α : Type} (result : α → Prop)
    (program : RouterProg α) : Prop :=
  program.Yields (AnswerReceived depth) result

def AttemptCarries (depth : Nat) (attempt : SipRouter.Attempt) : Prop :=
  ∀ result, attempt.result = some result → Carried depth result.receipt

theorem yields_paymentFailover (reserved : Option (List HeldVoucher))
    (detail : Text) :
    Yielding depth (AttemptCarries depth) (paymentFailover reserved detail) := by
  unfold paymentFailover
  cases reserved with
  | none => exact nofun
  | some vouchers => exact Prog.yields_bind fun _ => nofun

theorem Received.body {response : SipRouter.Response} {body : Json}
    (received : Received depth response)
    (read : safeJson response = .ok body) :
    body.DistinctKeys ∧ Json.nesting body ≤ depth := by
  unfold safeJson at read
  cases isJson : response.json with
  | ok value =>
      rw [isJson] at read
      cases read
      exact received _ isJson
  | error error =>
      rw [isJson] at read
      dsimp only at read
      split_ifs at read
      cases read
      exact ⟨.null, Nat.zero_le _⟩

/-- A member of a dict that was read. -/
theorem carried_member {fields : Dict} (key : Text)
    (distinct : (Json.obj fields).DistinctKeys)
    (shallow : Json.nesting (.obj fields) ≤ depth) :
    Carried depth (orElse (fields.get key) (.obj [])) := by
  have empty : Carried depth (.obj []) :=
    ⟨.obj [] List.nodup_nil (List.forall_mem_nil _), .inr rfl⟩
  unfold orElse
  split_ifs with isTruthy
  · unfold Dict.get at isTruthy ⊢
    cases found : fields.find key with
    | none =>
        rw [found] at isTruthy
        cases isTruthy
    | some value =>
        have inside := Json.nestingFields_le.mp le_rfl _ (Dict.find_mem found)
        exact ⟨distinct.of_find found, .inl (inside.trans_lt shallow)⟩
  · exact empty

theorem yields_judge {response : SipRouter.Response}
    (received : Received depth response)
    (reserved : Option (List HeldVoucher)) (quote : Option Dict) :
    Yielding depth (AttemptCarries depth)
      (judge P options response reserved quote candidate) := by
  have failover := @yields_paymentFailover depth reserved
  unfold judge
  split_ifs
  · exact failover _
  · refine Prog.Yields.bind (yields_lift.mpr fun body => received.body) ?_
    intro body ⟨distinct, shallow⟩
    dsimp only
    split
    · exact failover _
    · rename_i content extracted
      obtain ⟨fields, isDict, _⟩ := Option.bind_eq_some_iff.mp extracted
      refine Prog.yields_bind fun isTrusted => ?_
      split_ifs
      · exact failover _
      · refine Prog.yields_bind fun isHonored => ?_
        split_ifs
        · exact failover _
        · rintro result ⟨⟩
          rw [isDict]
          cases Json.asDict_eq_some.mp isDict
          exact carried_member "sip_receipt" distinct shallow

/-- **The receipt of a result was received** as part of a response. -/
theorem yields_receipt (providers : List ProviderEntry) :
    Yielding depth (fun result => Carried depth result.receipt)
      (chat P options providers) := by
  have routed := @yields_chat P options (AnswerReceived depth)
    (fun _ _ => AttemptCarries depth) providers ?_
  · refine routed.mono ?_
    rintro result ⟨requestId, routed⟩
    obtain ⟨attempt, served, ⟨_, _, _, carries⟩, isServed, _, same, _⟩ :=
      routed.served
    rw [same]
    exact carries served isServed
  · intro requestId candidate _ client _
    refine @yields_tryCandidate _ _ _ _ _ _ _ (fun _ => True)
      (fun _ _ => nofun) ?_ ?_
    · refine fun _ => Prog.yields_of_forall _ fun quote => ?_
      cases quote with
      | none => exact nofun
      | some quote => trivial
    rintro response reserved quote _ _ ⟨payment, received⟩
    exact yields_judge received reserved quote

/-- A registered provider that the policy permits has signed a receipt for the
content. -/
structure Vouched (P : Platform) (policy : Option Policy)
    (getScore : Option (Text → Option Float)) (registry : List ProviderEntry)
    (candidate : ProviderEntry) (key : Text) (receipt : Dict)
    (content : Text) : Prop where
  listed : candidate ∈ registry
  permitted : ∀ rules, policy = some rules →
    Policy.permitsEntry ProviderEntry.manifest getScore P rules candidate =
      true
  named : candidate.manifest.get "provider_pubkey" = .str key
  guaranteed : ReceiptGuarantee P content key receipt

section

variable {policy : Option Policy} {getScore : Option (Text → Option Float)}
  {registry providers : List ProviderEntry} {proxy : Proxy} {stamp : Stamp}
  {authorization : Option Bytes} {request : ChatRequest}
  {start : NetworkState}

theorem permittedEntries_mem
    (permitted : permittedEntries P policy getScore registry = .ok providers)
    (member : candidate ∈ providers) :
    candidate ∈ registry ∧ ∀ rules, policy = some rules →
      Policy.permitsEntry ProviderEntry.manifest getScore P rules candidate =
        true := by
  cases policy with
  | none =>
      cases permitted
      exact ⟨member, nofun⟩
  | some rules =>
      obtain ⟨_, rfl⟩ :=
        (Policy.filterEntries_eq_ok_iff _ getScore registry providers).mp
          permitted
      obtain ⟨listed, permits⟩ := List.mem_filter.mp member
      refine ⟨listed, ?_⟩
      rintro _ ⟨⟩
      exact permits

/-- What is known of a result. -/
structure ResultVouched (P : Platform) (policy : Option Policy)
    (getScore : Option (Text → Option Float)) (registry : List ProviderEntry)
    (depth : Nat) (candidate : ProviderEntry) (key : Text) (receipt : Dict)
    (result : RouteResult) : Prop where
  vouched : Vouched P policy getScore registry candidate key receipt
    result.content
  baseUrl : result.baseUrl = candidate.baseUrl
  pubkey : result.providerPubkey = .str key
  isReceipt : result.receipt = .obj receipt
  distinct : (Json.obj receipt).DistinctKeys
  shallow : Json.nesting (.obj receipt) < depth

variable (P depth policy getScore registry providers proxy stamp authorization
  request start) in
/-- How a request ends. -/
inductive Ends : Except RouterExc Http.Response → NetworkState → Prop where
  | raised (error : PyExc) (after : NetworkState) :
      Ends (.error (.raised error)) after
  | unauthorized {response : Http.Response} :
      proxyAuthorized proxy.apiKey authorization = .ok false →
      unauthorized = .ok response → Ends (.ok response) start
  | exhausted {candidates : List ProviderEntry}
      {records : List (Text × Text)} {response : Http.Response}
      {after : NetworkState} :
      resolve providers request.model (some "direct") none = .ok candidates →
      FailureRecords candidates records → Conserves start after [] →
      noProvider P request.model records = .ok response →
      Ends (.ok response) after
  | completed {candidate : ProviderEntry} {key : Text} {receipt : Dict}
      {result : RouteResult} {response : Http.Response}
      {after : NetworkState} :
      ResultVouched P policy getScore registry depth candidate key receipt
        result →
      completion stamp request result = .ok response →
      Ends (.ok response) after

abbrev receivedNetwork (depth : Nat) : World RouterSig NetworkState :=
  freeNetwork fun _ event => AnswerReceived depth event.op event.answer

theorem candidatesOf_proxy (messages : List Json) :
    candidatesOf (chatOptions proxy request messages) providers =
      resolve providers request.model (some "direct") none := by
  unfold candidatesOf chatOptions
  cases resolve providers request.model (some "direct") none <;> rfl

/-- How `chat` ends for the proxy. -/
def Tried (P : Platform) (policy : Option Policy)
    (getScore : Option (Text → Option Float))
    (registry providers : List ProviderEntry) (depth : Nat)
    (request : ChatRequest) (start : NetworkState)
    (outcome : Except RouterExc
      (Except (Text × List (Text × Text)) RouteResult))
    (after : NetworkState) : Prop :=
  (∃ error, outcome = .error (.raised error)) ∨
  (∃ candidates records,
    resolve providers request.model (some "direct") none = .ok candidates ∧
    FailureRecords candidates records ∧ Conserves start after [] ∧
    outcome = .ok (.error (request.model, records))) ∨
  ∃ candidate key receipt result,
    ResultVouched P policy getScore registry depth candidate key receipt
      result ∧ outcome = .ok (.ok result)

private theorem wp_tryChat (messages : List Json)
    (permitted : permittedEntries P policy getScore registry =
      .ok providers) :
    (tryChat P (chatOptions proxy request messages) providers).wp
      (receivedNetwork depth)
      (Tried P policy getScore registry providers depth request start)
      start := by
  unfold tryChat
  rw [Prog.wp_tryCatch, Prog.wp_bind]
  have receives : (chat P (chatOptions proxy request messages) providers).wp
      (receivedNetwork depth) (fun outcome _ => ∀ result,
        outcome = .ok result → Carried depth result.receipt) start := by
    refine (yields_receipt providers).wp (fun _ _ => trivial) ?_
    intro state op answer after stepped
    exact stepped.2.1
  refine Prog.wp_mono _ ?_ (Prog.wp_and _ (wp_chat providers) receives)
  rintro outcome after ⟨ends, carries⟩
  rcases ends with ⟨error, rfl⟩ | ⟨candidates, resolves, routed⟩
  · exact .inl ⟨error, rfl⟩
  · rw [candidatesOf_proxy] at resolves
    cases routed with
    | exhausted failures _ conserves =>
        exact .inr (.inl ⟨candidates, _, resolves, failures, conserves, rfl⟩)
    | raised error _ => exact .inl ⟨error, rfl⟩
    | @served tried rest candidate records result pubkey after split _ _
        isPubkey served =>
        obtain ⟨⟨quote, fetched, checked⟩, _⟩ := served
        obtain ⟨key, receipt, isKey, isReceipt, guarantee, _⟩ :=
          checked.guarantees rfl fetched
        have sameKey := (entryPubkey_get isPubkey).symm.trans isKey
        have member : candidate ∈ providers := by
          refine resolve_mem resolves ?_
          rw [split]
          exact List.mem_append_right _ List.mem_cons_self
        obtain ⟨listed, permits⟩ := permittedEntries_mem permitted member
        have carried := carries _ rfl
        dsimp only at carried
        rw [isReceipt] at carried
        obtain ⟨distinct, inside | isEmpty⟩ := carried
        · exact .inr (.inr ⟨candidate, key, receipt, _,
            ⟨⟨listed, permits, isKey, guarantee⟩, rfl, sameKey, isReceipt,
              distinct, inside⟩, rfl⟩)
        · cases isEmpty
          exact absurd guarantee.named nofun

theorem wp_chatCompletions
    (permitted : permittedEntries P policy getScore registry =
      .ok providers) :
    (chatCompletions P proxy providers stamp authorization request).wp
      (receivedNetwork depth)
      (Ends P depth policy getScore registry providers proxy stamp
        authorization request start) start := by
  unfold chatCompletions
  rw [Prog.bind_eq, Prog.wp_bind, wp_lift]
  cases admits : proxyAuthorized proxy.apiKey authorization with
  | error error => exact .raised error start
  | ok admitted =>
      rw [mapError_ok]
      dsimp only [Prog.afterBind]
      cases admitted with
      | false =>
          show Prog.wp _ (lift unauthorized) _ _
          rw [wp_lift]
          cases answered : unauthorized with
          | error error => exact .raised error start
          | ok response => exact .unauthorized admits answered
      | true =>
          simp only [Bool.not_true, Bool.false_eq_true, if_false]
          rw [Prog.bind_eq, Prog.wp_bind, wp_lift]
          cases request.messages.mapM (messageJson P) with
          | error error => exact .raised error start
          | ok messages =>
              rw [mapError_ok]
              dsimp only [Prog.afterBind]
              rw [Prog.bind_eq, Prog.wp_bind]
              refine Prog.wp_mono _ ?_ (wp_tryChat messages permitted)
              rintro outcome after (⟨error, rfl⟩ |
                ⟨candidates, records, resolves, failures, conserves, rfl⟩ |
                ⟨candidate, key, receipt, result, vouched, rfl⟩)
              · exact .raised error after
              · show Prog.wp _ (lift _) _ _
                rw [wp_lift]
                cases answered : noProvider P request.model records with
                | error error => exact .raised error after
                | ok response =>
                    exact .exhausted resolves failures conserves answered
              · show Prog.wp _ (lift _) _ _
                rw [wp_lift]
                cases answered : completion stamp request result with
                | error error => exact .raised error after
                | ok response => exact .completed vouched answered

theorem usage_eq_ok {receipt counted : Json}
    (counts : usage receipt = .ok counted) :
    ∃ prompt completion,
      SinNode.tokensAt receipt "input_tokens" = .ok prompt ∧
      SinNode.tokensAt receipt "output_tokens" = .ok completion ∧
      counted = .obj [("prompt_tokens", .int prompt),
        ("completion_tokens", .int completion),
        ("total_tokens", .int (prompt + completion))] := by
  obtain ⟨prompt, isPrompt, counts⟩ := bind_eq_ok.mp counts
  obtain ⟨completion, isCompletion, counts⟩ := bind_eq_ok.mp counts
  cases counts
  exact ⟨prompt, completion, isPrompt, isCompletion, rfl⟩

/-- The member `sip` of a completion. -/
def sipJson (candidate : ProviderEntry) (key : Text) (receipt : Dict) : Json :=
  .obj [("provider_pubkey", .str key), ("base_url", .str candidate.baseUrl),
    ("receipt_verified", .bool true), ("receipt", .obj receipt)]

/-- A completion as a client reads it. -/
theorem completionJson_read {candidate : ProviderEntry} {key : Text}
    {receipt : Dict} {result : RouteResult} {json : Json}
    (vouched : ResultVouched P policy getScore registry depth candidate key
      receipt result)
    (made : completionJson stamp request.model result = .ok json) :
    ∃ (fields : Dict) (inputTokens outputTokens : Int), json = .obj fields ∧
      fields.get "sip" = sipJson candidate key receipt ∧
      SinNode.tokensAt (.obj receipt) "input_tokens" = .ok inputTokens ∧
      SinNode.tokensAt (.obj receipt) "output_tokens" = .ok outputTokens ∧
      SinNode.readChat json =
        .ok ⟨result.content, inputTokens, outputTokens⟩ ∧
      json.DistinctKeys ∧
      Json.nesting json ≤ max 4 (Json.nesting (.obj receipt) + 2) := by
  obtain ⟨counted, counts, made⟩ := bind_eq_ok.mp made
  obtain ⟨inputTokens, outputTokens, isInput, isOutput, rfl⟩ :=
    usage_eq_ok counts
  rw [vouched.isReceipt] at isInput isOutput
  cases made
  refine ⟨_, inputTokens, outputTokens, rfl, ?_, isInput, isOutput, rfl, ?_,
    ?_⟩
  · rw [vouched.pubkey, vouched.baseUrl, vouched.isReceipt]
    rfl
  · rw [vouched.pubkey, vouched.isReceipt]
    have message : (Json.obj [("role", .str "assistant"),
        ("content", .str result.content)]).DistinctKeys :=
      distinct_obj ["role", "content"] rfl (by decide)
        (by simp [DistinctKeys.str])
    have choice : (Json.obj [("index", .int 0), ("message", .obj [
        ("role", .str "assistant"), ("content", .str result.content)]),
        ("finish_reason", .str "stop")]).DistinctKeys :=
      distinct_obj ["index", "message", "finish_reason"] rfl (by decide)
        (by simp [DistinctKeys.str, DistinctKeys.int, message])
    have counted : (Json.obj [("prompt_tokens", .int inputTokens),
        ("completion_tokens", .int outputTokens),
        ("total_tokens", .int (inputTokens + outputTokens))]).DistinctKeys :=
      distinct_obj ["prompt_tokens", "completion_tokens", "total_tokens"] rfl
        (by decide) (by simp [DistinctKeys.int])
    have sip : (Json.obj [("provider_pubkey", .str key),
        ("base_url", .str result.baseUrl), ("receipt_verified", .bool true),
        ("receipt", .obj receipt)]).DistinctKeys :=
      distinct_obj ["provider_pubkey", "base_url", "receipt_verified",
        "receipt"] rfl (by decide)
        (by simp [DistinctKeys.str, DistinctKeys.bool, vouched.distinct])
    exact distinct_obj ["id", "object", "created", "model", "choices",
      "usage", "sip"] rfl (by decide) (by
        simp [DistinctKeys.str, DistinctKeys.int, counted, sip,
          DistinctKeys.arr _ (List.forall_mem_singleton.mpr choice)])
  · rw [vouched.pubkey, vouched.isReceipt]
    simp only [Json.nesting, Json.nestingFields, Json.nestingField,
      Json.nestingItems]
    omega

theorem errorResponse_status {message kind : Text} {status : Int}
    {response : Http.Response}
    (made : errorResponse message kind status = .ok response) :
    response.status = status :=
  (Http.jsonResponse_eq_ok.mp made).1

variable (proxy providers authorization request start) in
/-- A request that is not answered with a completion: it had no key, and no
provider was asked, or no provider served, and nothing was paid. -/
inductive Refused (final : NetworkState) (status : Int) : Prop where
  | unauthorized : status = 401 →
      proxyAuthorized proxy.apiKey authorization = .ok false →
      final = start →
      Refused final status
  | exhausted {candidates : List ProviderEntry}
      {records : List (Text × Text)} : status = 502 →
      resolve providers request.model (some "direct") none = .ok candidates →
      FailureRecords candidates records → Conserves start final [] →
      Refused final status

theorem Refused.noCompletion {final : NetworkState} {response : Http.Response}
    (refused : Refused providers proxy authorization request start final
      response.status) :
    SinNode.raiseForStatus response = .error (.status response.status) := by
  unfold SinNode.raiseForStatus
  cases refused with
  | unauthorized status => rw [status, if_neg (by decide)]
  | exhausted status => rw [status, if_neg (by decide)]

theorem answered_cases {final : NetworkState} {response : Http.Response}
    (permitted : permittedEntries P policy getScore registry = .ok providers)
    (run : Exec (receivedNetwork depth) start
      (chatCompletions P proxy providers stamp authorization request) final
      (.ok response)) :
    Refused providers proxy authorization request start final
      response.status ∨
    ∃ candidate key receipt result,
      ResultVouched P policy getScore registry depth candidate key receipt
        result ∧ completion stamp request result = .ok response := by
  cases Prog.wp_sound run (wp_chatCompletions permitted) with
  | unauthorized admits answered =>
      exact .inl (.unauthorized (errorResponse_status answered) admits rfl)
  | exhausted resolves failures conserves answered =>
      exact .inl (.exhausted (errorResponse_status answered) resolves failures
        conserves)
  | completed vouched answered =>
      exact .inr ⟨_, _, _, _, vouched, answered⟩

/-- **A completion is what a permitted provider signed.**  What a client reads
of the answer of the proxy is an error, or content with a receipt for it from a
registered provider that the policy permits. -/
theorem completion_vouched {codecs : Codecs} {clientDepth : Nat}
    {final : NetworkState} {response : Http.Response}
    (permitted : permittedEntries P policy getScore registry = .ok providers)
    (whole : request.stream = false) (deep : 4 ≤ clientDepth)
    (deeper : depth < clientDepth)
    (run : Exec (receivedNetwork depth) start
      (chatCompletions P proxy providers stamp authorization request) final
      (.ok response)) :
    (Refused providers proxy authorization request start final
        response.status ∧
      SinNode.chat codecs clientDepth response =
        .error (.status response.status)) ∨
    ∃ candidate key receipt result, ∃ data : Dict,
      SinNode.chat codecs clientDepth response = .ok result ∧
      Vouched P policy getScore registry candidate key receipt
        result.content ∧
      SinNode.tokensAt (.obj receipt) "input_tokens" =
        .ok result.inputTokens ∧
      SinNode.tokensAt (.obj receipt) "output_tokens" =
        .ok result.outputTokens ∧
      Http.bodyJson codecs clientDepth response.body = .ok (.obj data) ∧
      data.get "sip" = sipJson candidate key receipt := by
  rcases answered_cases permitted run with refused |
    ⟨candidate, key, receipt, result, vouched, answered⟩
  · refine .inl ⟨refused, ?_⟩
    unfold SinNode.chat
    rw [refused.noCompletion]
    rfl
  · unfold completion at answered
    rw [whole, if_neg Bool.false_ne_true] at answered
    obtain ⟨json, made, answered⟩ := bind_eq_ok.mp answered
    obtain ⟨fields, inputTokens, outputTokens, rfl, sip, isInput, isOutput,
      reads, distinct, atMost⟩ := completionJson_read vouched made
    obtain ⟨status, _, sent⟩ := Http.jsonResponse_eq_ok.mp answered
    have shallow := vouched.shallow
    have received : Http.bodyJson codecs clientDepth response.body =
        .ok (.obj fields) :=
      Http.bodyJson_dumpBytes distinct (by omega) sent
    refine .inr ⟨candidate, key, receipt, ⟨result.content, inputTokens,
      outputTokens⟩, fields, ?_, vouched.vouched, isInput, isOutput,
      received, sip⟩
    unfold SinNode.chat SinNode.raiseForStatus
    rw [status, if_pos (by decide), ok_bind, received, ok_bind, reads]
    rfl

end

def receivedCheck (depth : Nat) : NetworkState → RouterEvent → Bool
  | _, ⟨.get _ _, .ok ⟨_, .ok value⟩⟩ =>
      decide (value.DistinctKeys ∧ Json.nesting value ≤ depth)
  | _, ⟨.post _ _ _ _, .ok ⟨_, .ok value⟩⟩ =>
      decide (value.DistinctKeys ∧ Json.nesting value ≤ depth)
  | _, _ => true

theorem receivedCheck_sound {depth : Nat} (state : NetworkState)
    (event : RouterEvent) (passes : receivedCheck depth state event = true) :
    AnswerReceived depth event.op event.answer := by
  have each : ∀ response : SipRouter.Response,
      (∀ value, response = ⟨response.statusCode, .ok value⟩ →
        value.DistinctKeys ∧ Json.nesting value ≤ depth) →
          Received depth response := by
    rintro ⟨status, json⟩ holds value rfl
    exact holds value rfl
  obtain ⟨op, answer⟩ := event
  cases op with
  | get client path =>
      cases answer with
      | error name => trivial
      | ok response =>
          refine each response fun value isValue => ?_
          rw [isValue] at passes
          exact of_decide_eq_true passes
  | post client path headers body =>
      cases answer with
      | error name => trivial
      | ok response =>
          refine each response fun value isValue => ?_
          rw [isValue] at passes
          exact of_decide_eq_true passes
  | _ => trivial

def thriftyPolicy : Policy :=
  { Policy.default with denyProviders := ["ed25519:x"] }

def openProxy : Proxy := ⟨some "k", 512, false, none⟩

def sampleStamp : Stamp := ⟨1767225600, 0⟩

def bearerKey : Bytes := ascii "Bearer k"

def hiRequest (stream : Bool) : ChatRequest :=
  ⟨"m", [⟨"user", .str "hello"⟩], none, stream⟩

def hiAnswer : Script where
  requestId := "r"
  nonce := "n"
  now := ⟨63902822460000000, some 0⟩
  answers := [healthyAnswer, servedAnswer "hi" (.obj signedReceipt)]

/-- The run of a request to the proxy. -/
def proxyRun (stream : Bool) :
    Except RouterExc Http.Response × NetworkState ×
      List (Except Text SipRouter.Response) :=
  hiAnswer.run (chatCompletions routeTable.platform openProxy oneEntry
    sampleStamp (some bearerKey) (hiRequest stream)) []

theorem proxyRun_served (stream : Bool) : ∃ response,
    (proxyRun stream).1 = .ok response ∧ response.status = 200 ∧
      Exec (receivedNetwork 4) ⟨[], []⟩ (chatCompletions routeTable.platform
        openProxy oneEntry sampleStamp (some bearerKey) (hiRequest stream))
        (proxyRun stream).2.1 (.ok response) := by
  have serves : (proxyRun stream).1.map (·.status) = .ok 200 := by
    revert stream
    decide +kernel
  have run := hiAnswer.exec_passing (@receivedCheck_sound 4)
    (chatCompletions routeTable.platform openProxy oneEntry sampleStamp
      (some bearerKey) (hiRequest stream)) (⟨[], []⟩, hiAnswer.answers)
    (by revert stream; decide +kernel)
  cases ran : (proxyRun stream).1 with
  | error error =>
      rw [ran] at serves
      cases serves
  | ok response =>
      rw [ran] at serves
      refine ⟨response, rfl, Except.ok.inj serves, ?_⟩
      rw [← ran]
      exact run

theorem oneEntry_permitted :
    permittedEntries routeTable.platform (some thriftyPolicy) none oneEntry =
      .ok oneEntry := rfl

theorem completion_vouched_one : ∃ final response result receipt,
    Exec (receivedNetwork 4) ⟨[], []⟩ (chatCompletions routeTable.platform
        openProxy oneEntry sampleStamp (some bearerKey) (hiRequest false))
        final (.ok response) ∧
      SinNode.chat Http.utf8Codecs 5 response = .ok result ∧
      ReceiptGuarantee routeTable.platform result.content providerKey
        receipt := by
  obtain ⟨response, ran, served, run⟩ := proxyRun_served false
  rcases @completion_vouched _ 4 _ _ _ _ _ _ _ _ _ Http.utf8Codecs 5 _ _
      oneEntry_permitted rfl (by decide) (by decide) run with ⟨refused, _⟩ |
    ⟨candidate, key, receipt, result, _, reads, vouched, _⟩
  · have noCompletion := refused.noCompletion
    unfold SinNode.raiseForStatus at noCompletion
    rw [served] at noCompletion
    cases noCompletion
  · obtain rfl := List.mem_singleton.mp vouched.listed
    cases vouched.named
    exact ⟨_, response, result, receipt, run, reads, vouched.guaranteed⟩

end SovereignInference.SipOpenaiProxy
