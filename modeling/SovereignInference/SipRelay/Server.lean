import SovereignInference.Effects.Traces
import SovereignInference.Python.Http
import SovereignInference.SipOpenaiProxy.TrustBoundary
import SovereignInference.SipRelay.App
import SovereignInference.SipRelay.Client

/-!
# The relay server

The relay posts a completion only to a target that a verified manifest names
and that is a safe address, and it answers with what the target answered.  So
a client sees through an honest relay what the provider sent, and nothing
else.
-/

namespace SovereignInference.SipRelay

open Python Python.Json Python.Http Effects SipProtocol SipDiscovery

/-- An `httpx.HTTPError` with its message, or another exception. -/
inductive PostError where
  | httpError (message : Text)
  | other (error : PyExc)

/-- Making a client for the address is part of the post: if that raises, nothing
is sent. -/
inductive RelayOp where
  | post (baseUrl path : Text) (body : Bytes)
  deriving DecidableEq

abbrev RelaySig : Signature where
  Op := RelayOp
  Ans := fun
    | .post _ _ _ => Except PostError Response

abbrev RelayProg := Prog RelaySig PyExc

def errorResponse (status : Int) (message : Text) : Except PyExc Response :=
  jsonResponse status (.obj [("error", .str message)])

/-- A refusal with its message, or another exception. -/
inductive RelayRefusal where
  | refused (message : Text)
  | raised (error : PyExc)

section

variable (U : Unicode) (P : Platform) (codecs : Codecs) (depth : Nat)

/-- The checks of a target: where to forward to. -/
def checkTarget (target : Dict) : Except RelayRefusal Text :=
  match (target.get "manifest").asDict, (target.get "base_url").asStr with
  | some manifest, some baseUrl =>
      match verifyProviderManifest P manifest with
      | .error error => .error (.raised error)
      | .ok false => .error (.refused "target manifest does not verify")
      | .ok true =>
          if !(manifest.get "manifest_uri").isStr baseUrl then
            .error (.refused "base_url does not match the signed manifest_uri")
          else if !isSafeForwardUrl U baseUrl then
            .error (.refused
              "refusing to forward to a private/loopback address")
          else .ok baseUrl
  | _, _ => .error (.refused "target needs base_url + manifest")

/-- The checks of a request: where to forward to, and the completion. -/
def checkRequest (body : Bytes) : Except RelayRefusal (Text × Dict) :=
  match bodyJson codecs depth body with
  | .ok body =>
      let fields := body.asDict.getD []
      match (fields.get "target").asDict, (fields.get "completion").asDict with
      | some target, some completion =>
          (checkTarget U P target).map fun baseUrl => (baseUrl, completion)
      | _, _ => .error (.refused "expected {target, completion}")
  | .error error =>
      if error.isValueError then .error (.refused "body must be JSON")
      else .error (.raised error)

/-- `upstream.json()`, or a note that it is not JSON. -/
def upstreamPayload (body : Bytes) : Except PyExc Json :=
  match bodyJson codecs depth body with
  | .ok payload => .ok payload
  | .error error =>
      if error.isValueError then
        .ok (.obj [("error", .str "provider returned non-JSON")])
      else .error error

/-- The answer to the client. -/
def relayed : Except PostError Response → Except PyExc Response
  | .error (.httpError message) =>
      errorResponse 502 ("upstream provider unreachable: " ++ message)
  | .error (.other error) => .error error
  | .ok upstream => do
      jsonResponse upstream.status
        (← upstreamPayload codecs depth upstream.body)

def completionsPath : Text := "/v1/chat/completions"

/-- `POST /sip/v1/relay` -/
def relay (body : Bytes) : RelayProg Response :=
  match checkRequest U P codecs depth body with
  | .error (.refused message) => .ofExcept (errorResponse 400 message)
  | .error (.raised error) => .raise error
  | .ok (baseUrl, completion) =>
      match dumpBytes false (.obj completion) with
      | .error error => .raise error
      | .ok posted => .call (.post baseUrl completionsPath posted) fun answer =>
          .ofExcept (relayed codecs depth answer)

end

variable {U : Unicode} {P : Platform} {codecs : Codecs} {depth : Nat}
  {target completion : Dict} {baseUrl : Text} {body posted : Bytes}

/-- A verified manifest names the URL, which is a safe address. -/
structure ForwardTo (U : Unicode) (P : Platform) (target : Dict)
    (baseUrl : Text) : Prop where
  stated : target.get "base_url" = .str baseUrl
  manifest : ∃ manifest : Dict, target.get "manifest" = .obj manifest ∧
    verifyProviderManifest P manifest = .ok true ∧
    manifest.get "manifest_uri" = .str baseUrl
  safe : isSafeForwardUrl U baseUrl = true

theorem checkTarget_eq_ok :
    checkTarget U P target = .ok baseUrl ↔ ForwardTo U P target baseUrl := by
  unfold checkTarget
  constructor
  · intro checked
    split at checked
    · rename_i manifest url isManifest isUrl
      split at checked
      · cases checked
      · cases checked
      · rename_i verifies
        simp only [Bool.not_eq_true'] at checked
        split_ifs at checked with other unsafe'
        cases checked
        rw [Bool.not_eq_false] at other unsafe'
        exact ⟨Json.asStr_eq_some.mp isUrl, ⟨manifest,
          Json.asDict_eq_some.mp isManifest, verifies,
          Json.isStr_iff.mp other⟩, unsafe'⟩
    · cases checked
  · intro forwards
    obtain ⟨manifest, isManifest, verifies, named⟩ := forwards.manifest
    have same := Json.isStr_iff.mpr named
    simp only [forwards.stated, isManifest, Json.asDict, Json.asStr, verifies,
      same, forwards.safe, Bool.not_true, Bool.false_eq_true, if_false]

/-- A body with these two members, among others. -/
structure Requests (codecs : Codecs) (depth : Nat) (body : Bytes)
    (target completion : Dict) : Prop where
  fields : ∃ fields : Dict, bodyJson codecs depth body = .ok (.obj fields) ∧
    fields.get "target" = .obj target ∧
    fields.get "completion" = .obj completion

theorem checkRequest_eq_ok :
    checkRequest U P codecs depth body = .ok (baseUrl, completion) ↔
      ∃ target, Requests codecs depth body target completion ∧
        ForwardTo U P target baseUrl := by
  unfold checkRequest
  constructor
  · intro checked
    split at checked
    · rename_i value received
      dsimp only at checked
      split at checked
      · rename_i target completion' isTarget isCompletion
        cases forwards : checkTarget U P target with
        | error refusal =>
            rw [forwards] at checked
            cases checked
        | ok baseUrl' =>
            rw [forwards] at checked
            cases checked
            rw [Json.asDict_eq_some] at isTarget isCompletion
            cases isDict : value.asDict with
            | none =>
                rw [isDict] at isTarget
                cases isTarget
            | some fields =>
                rw [isDict] at isTarget isCompletion
                rw [Json.asDict_eq_some.mp isDict] at received
                exact ⟨target, ⟨fields, received, isTarget, isCompletion⟩,
                  checkTarget_eq_ok.mp forwards⟩
      · cases checked
    · split_ifs at checked
  · rintro ⟨target, ⟨fields, received, isTarget, isCompletion⟩, forwards⟩
    simp only [received, Json.asDict, Option.getD_some, isTarget, isCompletion,
      checkTarget_eq_ok.mpr forwards, Except.map]

/-- A checked request: what is posted, and where. -/
structure Forwards (U : Unicode) (P : Platform) (codecs : Codecs) (depth : Nat)
    (body : Bytes) (baseUrl : Text) (posted : Bytes) : Prop where
  checked : ∃ target completion, Requests codecs depth body target completion ∧
    ForwardTo U P target baseUrl ∧
    dumpBytes false (.obj completion) = .ok posted ∧
    bodyJson codecs depth posted = .ok (.obj completion)

/-- The completion of a request arrives as it was sent. -/
theorem Requests.arrives
    (requests : Requests codecs depth body target completion)
    (sent : dumpBytes false (.obj completion) = .ok posted) :
    bodyJson codecs depth posted = .ok (.obj completion) := by
  obtain ⟨fields, received, _, isCompletion⟩ := requests.fields
  obtain ⟨distinct, shallow⟩ := bodyJson_member received isCompletion
  exact bodyJson_dumpBytes distinct shallow sent

theorem Forwards.of_checkRequest
    (checked : checkRequest U P codecs depth body = .ok (baseUrl, completion))
    (sent : dumpBytes false (.obj completion) = .ok posted) :
    Forwards U P codecs depth body baseUrl posted := by
  obtain ⟨target, requests, forwards⟩ := checkRequest_eq_ok.mp checked
  exact ⟨target, completion, requests, forwards, sent, requests.arrives sent⟩

theorem Forwards.exists_checkRequest
    (forwards : Forwards U P codecs depth body baseUrl posted) :
    ∃ completion,
      checkRequest U P codecs depth body = .ok (baseUrl, completion) ∧
        dumpBytes false (.obj completion) = .ok posted := by
  obtain ⟨target, completion, requests, forwardTo, sent, _⟩ := forwards.checked
  exact ⟨completion, checkRequest_eq_ok.mpr ⟨target, requests, forwardTo⟩,
    sent⟩

/-- `{"base_url": "https://node.example", "manifest": {…}}` -/
def nodeTarget : Dict :=
  [("base_url", .str "https://node.example"), ("manifest", .obj newerManifest)]

theorem forwardTo_node :
    ForwardTo SipOpenaiProxy.asciiTables manifestTable.platform nodeTarget
      "https://node.example" := by
  refine ⟨rfl, ⟨newerManifest, rfl, newerManifest_verified, rfl⟩, ?_⟩
  decide +kernel

theorem node_request :
    (Json.obj (relayRequest nodeTarget sampleCompletion)).DistinctKeys ∧
      nesting (.obj (relayRequest nodeTarget sampleCompletion)) ≤ 4 ∧
      (Json.obj (relayRequest nodeTarget sampleCompletion)).Clean := by
  decide +kernel

/-- **What the relay does.**  It posts at most once, exactly if the request
names a target that a verified manifest places at a safe address; what arrives
there is the completion of the request, and the answer is what comes back.
Otherwise it answers with status 400 or raises. -/
theorem relay_performs {events : List (Event RelaySig)}
    {outcome : Except PyExc Response}
    (run : Performs (relay U P codecs depth body) events outcome) :
    (∃ baseUrl posted answer,
      Forwards U P codecs depth body baseUrl posted ∧
        events = [⟨.post baseUrl completionsPath posted, answer⟩] ∧
          outcome = relayed codecs depth answer) ∨
    ((∀ baseUrl posted, ¬ Forwards U P codecs depth body baseUrl posted) ∧
      events = [] ∧ ((∃ error, outcome = .error error) ∨
        ∃ message, outcome = errorResponse 400 message)) := by
  have refuses : ∀ refusal, checkRequest U P codecs depth body =
      .error refusal →
        ∀ baseUrl posted, ¬ Forwards U P codecs depth body baseUrl posted := by
    intro refusal refused baseUrl posted forwards
    obtain ⟨completion, checked, _⟩ := forwards.exists_checkRequest
    rw [refused] at checked
    cases checked
  unfold relay at run
  split at run
  · rename_i message refused
    obtain ⟨rfl, rfl⟩ := run.of_ofExcept
    exact .inr ⟨refuses _ refused, rfl, .inr ⟨message, rfl⟩⟩
  · rename_i error refused
    cases run
    exact .inr ⟨refuses _ refused, rfl, .inl ⟨error, rfl⟩⟩
  · rename_i baseUrl completion checked
    split at run
    · rename_i error unsent
      cases run
      refine .inr ⟨?_, rfl, .inl ⟨error, rfl⟩⟩
      intro baseUrl' posted forwards
      obtain ⟨completion', checked', sent⟩ := forwards.exists_checkRequest
      rw [checked] at checked'
      cases checked'
      rw [unsent] at sent
      cases sent
    · rename_i posted sent
      cases run with
      | call answer run =>
          obtain ⟨rfl, rfl⟩ := run.of_ofExcept
          exact .inl ⟨baseUrl, posted, answer, .of_checkRequest checked sent,
            rfl, rfl⟩

theorem relay_performs_node : ∃ body events outcome,
    Performs (relay SipOpenaiProxy.asciiTables manifestTable.platform
        utf8Codecs 4 body) events outcome ∧
      ∃ posted answer,
        events = [⟨.post "https://node.example" completionsPath posted,
          answer⟩] ∧
        bodyJson utf8Codecs 4 posted = .ok (.obj sampleCompletion) := by
  obtain ⟨distinct, shallow, clean⟩ := node_request
  obtain ⟨body, sent⟩ := (dumpBytes_isOk false _).mpr clean
  obtain ⟨posted, dumped⟩ := (dumpBytes_isOk false
    (.obj sampleCompletion)).mpr (by decide +kernel)
  have requests : Requests utf8Codecs 4 body nodeTarget sampleCompletion :=
    ⟨_, bodyJson_dumpBytes distinct shallow sent, rfl, rfl⟩
  have checked := checkRequest_eq_ok.mpr ⟨nodeTarget, requests, forwardTo_node⟩
  have forwards := Forwards.of_checkRequest checked dumped
  obtain ⟨events, run, _⟩ := Handler.performs_run
    (⟨fun _ op => match op with | .post _ _ _ => (.error (.httpError []), ())⟩ :
      Handler RelaySig Unit) (relay SipOpenaiProxy.asciiTables
        manifestTable.platform utf8Codecs 4 body) ()
  refine ⟨body, events, _, run, ?_⟩
  rcases relay_performs run with
    ⟨baseUrl, posted', answer, forwards', rfl, _⟩ | ⟨never, _⟩
  · obtain ⟨completion, checked', dumped'⟩ := forwards'.exists_checkRequest
    rw [checked] at checked'
    cases checked'
    exact ⟨posted', answer, rfl, requests.arrives dumped'⟩
  · exact absurd forwards (never _ _)

/-- What providers answer to a post. -/
abbrev Providers := Text → Text → Bytes → Except PostError Response

def Providers.handler (providers : Providers) : Handler RelaySig Unit where
  respond := fun _ op =>
    match op with
    | .post baseUrl path body => (providers baseUrl path body, ())

section

variable (U : Unicode) (P : Platform) (codecs : Codecs) (depth : Nat)
  (providers : Providers)

/-- The outcome of an endpoint as a client finds it. -/
def seen (outcome : Except PyExc Response) : RelayResponse :=
  let response := served outcome
  ⟨response.status, response.contentType, bodyJson codecs depth response.body⟩

/-- The relay as a client finds it, with these providers behind it. -/
def throughRelay (request : Dict) : Except PyExc RelayResponse := do
  let body ← dumpBytes false (.obj request)
  return seen codecs depth
    (providers.handler.run (relay U P codecs depth body) ()).1

/-- The target of the request answers the completion with a JSON payload. -/
structure Answers (target completion : Dict) (status : Int) (payload : Json) :
    Prop where
  exchange : ∃ baseUrl posted upstream, ForwardTo U P target baseUrl ∧
    dumpBytes false (.obj completion) = .ok posted ∧
    bodyJson codecs depth posted = .ok (.obj completion) ∧
    providers baseUrl completionsPath posted = .ok upstream ∧
    upstream.status = status ∧
    bodyJson codecs depth upstream.body = .ok payload
  clean : payload.Clean

end

/-- An answer of this status with this payload. -/
def directAnswer (status : Int) (payload : Json) (_ : Dict) :
    Except PyExc RelayResponse :=
  .ok ⟨status, "application/json", .ok payload⟩

variable {providers : Providers} {response : RelayResponse}
  {relay : Dict → Except PyExc RelayResponse} {verifyReceipts : Bool}
  {result : RelayResult}

/-- The payload has neither content nor a receipt. -/
def Barren (response : RelayResponse) : Prop :=
  ∀ payload, payloadOf response = .ok payload →
    payload.find "choices" = none ∧ payload.get "sip_receipt" = .null

theorem Barren.empty
    (answered : relay (relayRequest target completion) = .ok response)
    (barren : Barren response)
    (returned : relayChat P relay target completion verifyReceipts =
      .ok result) : result.content = [] ∧ result.receipt = [] := by
  unfold relayChat at returned
  rw [answered, ok_bind] at returned
  obtain ⟨payload, read, returned⟩ := bind_eq_ok.mp returned
  obtain ⟨noChoices, noReceipt⟩ := barren payload read
  have empty : contentOf P payload = .ok [] := by
    unfold contentOf contentValue
    rw [noChoices]
    rfl
  rw [empty, noReceipt, ok_bind] at returned
  obtain ⟨verified, _, returned⟩ := bind_eq_ok.mp returned
  cases returned
  exact ⟨rfl, rfl⟩

theorem barren_raised (error : PyExc) :
    Barren (seen codecs depth (.error error)) := by
  intro payload read
  cases read
  exact ⟨rfl, rfl⟩

theorem barren_errorResponse (deep : 1 ≤ depth) (status : Int)
    (message : Text) :
    Barren (seen codecs depth (errorResponse status message)) := by
  cases sent : errorResponse status message with
  | error error => exact barren_raised error
  | ok answer =>
      obtain ⟨_, isJson, written⟩ := jsonResponse_eq_ok.mp sent
      have distinct : (Json.obj [("error", .str message)]).DistinctKeys :=
        .obj _ (List.nodup_singleton _) (by simp [DistinctKeys.str])
      have received : bodyJson codecs depth answer.body = _ :=
        bodyJson_dumpBytes distinct deep written
      intro payload read
      dsimp only [seen, served] at read
      rw [isJson, received] at read
      cases read
      exact ⟨rfl, rfl⟩

/-- The answer comes back as it was, if it is JSON that can be sent. -/
theorem relayed_cases (deep : 1 ≤ depth) (answer : Except PostError Response) :
    Barren (seen codecs depth (relayed codecs depth answer)) ∨
    ∃ upstream payload, answer = .ok upstream ∧
      bodyJson codecs depth upstream.body = .ok payload ∧ payload.Clean := by
  cases answer with
  | error error =>
      cases error with
      | httpError message => exact .inl (barren_errorResponse deep _ _)
      | other error => exact .inl (barren_raised error)
  | ok upstream =>
      unfold relayed upstreamPayload
      dsimp only
      cases received : bodyJson codecs depth upstream.body with
      | error error =>
          dsimp only
          split_ifs
          · rw [ok_bind]
            exact .inl (barren_errorResponse deep _ _)
          · exact .inl (barren_raised error)
      | ok payload =>
          dsimp only
          rw [ok_bind]
          cases returned : jsonResponse upstream.status payload with
          | error error => exact .inl (barren_raised error)
          | ok answer =>
              have clean := (jsonResponse_isOk _ _).mp ⟨answer, returned⟩
              exact .inr ⟨upstream, payload, rfl, received, clean⟩

theorem seen_relayed {upstream : Response} {payload : Json}
    (received : bodyJson codecs depth upstream.body = .ok payload)
    (clean : payload.Clean) :
    seen codecs depth (relayed codecs depth (.ok upstream)) =
      ⟨upstream.status, "application/json", .ok payload⟩ := by
  obtain ⟨answer, returned⟩ := (jsonResponse_isOk upstream.status _).mpr clean
  obtain ⟨sameStatus, isJson, written⟩ := jsonResponse_eq_ok.mp returned
  obtain ⟨distinct, shallow⟩ := bodyJson_readable received
  have again : bodyJson codecs depth answer.body = .ok payload :=
    bodyJson_dumpBytes distinct shallow written
  have outcome : relayed codecs depth (.ok upstream) = .ok answer := by
    unfold relayed upstreamPayload
    dsimp only
    rw [received]
    exact returned
  rw [outcome]
  dsimp only [seen, served]
  rw [sameStatus, isJson, again]

section

variable (distinct : (Json.obj (relayRequest target completion)).DistinctKeys)
  (shallow : nesting (.obj (relayRequest target completion)) ≤ depth)

include distinct shallow

theorem requests_sent
    (sent : dumpBytes false (.obj (relayRequest target completion)) = .ok body)
    {target' completion' : Dict} :
    Requests codecs depth body target' completion' ↔
      target' = target ∧ completion' = completion := by
  have received := @bodyJson_dumpBytes codecs _ _ _ distinct shallow sent
  constructor
  · rintro ⟨fields, received', isTarget, isCompletion⟩
    rw [received] at received'
    cases received'
    cases isTarget
    cases isCompletion
    exact ⟨rfl, rfl⟩
  · rintro ⟨rfl, rfl⟩
    exact ⟨_, received, rfl, rfl⟩

/-- The relay answers what the target answers, or with an error. -/
theorem throughRelay_cases
    (answered : throughRelay U P codecs depth providers
      (relayRequest target completion) = .ok response) :
    Barren response ∨ ∃ status payload,
      Answers U P codecs depth providers target completion status payload ∧
        response = ⟨status, "application/json", .ok payload⟩ := by
  have deep : 1 ≤ depth := (Nat.succ_le_succ (Nat.zero_le _)).trans shallow
  unfold throughRelay at answered
  obtain ⟨body, sent, answered⟩ := bind_eq_ok.mp answered
  obtain ⟨events, run, answers⟩ := providers.handler.performs_run
    (SipRelay.relay U P codecs depth body) ()
  cases answered
  rcases relay_performs run with
    ⟨baseUrl, posted, answer, forwards, rfl, isRelayed⟩ |
    ⟨_, _, ⟨error, raised⟩ | ⟨message, refused⟩⟩
  · obtain ⟨_, isAnswer⟩ := answers _ List.mem_cons_self
    obtain ⟨target', completion', requests, forwardTo, dumped, arrives⟩ :=
      forwards.checked
    obtain ⟨rfl, rfl⟩ := (requests_sent distinct shallow sent).mp requests
    rw [isRelayed]
    rcases relayed_cases deep answer with barren |
      ⟨upstream, payload, rfl, received, clean⟩
    · exact .inl barren
    · exact .inr ⟨upstream.status, payload, ⟨⟨baseUrl, posted, upstream,
        forwardTo, dumped, arrives, isAnswer, rfl, received⟩, clean⟩,
        seen_relayed received clean⟩
  · rw [raised]
    exact .inl (barren_raised error)
  · rw [refused]
    exact .inl (barren_errorResponse deep 400 message)

private theorem throughRelay_answers {status : Int} {payload : Json}
    (clean : (Json.obj target).Clean)
    (answers : Answers U P codecs depth providers target completion status
      payload) :
    throughRelay U P codecs depth providers (relayRequest target completion) =
      .ok ⟨status, "application/json", .ok payload⟩ := by
  obtain ⟨baseUrl, posted, upstream, forwardTo, dumped, _, isAnswer, rfl,
    received⟩ := answers.exchange
  have cleanCompletion := (dumpBytes_isOk _ _).mp ⟨posted, dumped⟩
  have cleanRequest : (Json.obj (relayRequest target completion)).Clean := by
    rw [clean_obj]
    simp [relayRequest, clean, cleanCompletion]
  obtain ⟨body, sent⟩ := (dumpBytes_isOk false _).mpr cleanRequest
  have checked : checkRequest U P codecs depth body =
      .ok (baseUrl, completion) := checkRequest_eq_ok.mpr ⟨target,
    (requests_sent distinct shallow sent).mpr ⟨rfl, rfl⟩, forwardTo⟩
  unfold throughRelay SipRelay.relay
  rw [sent, ok_bind, checked]
  dsimp only
  rw [dumped]
  dsimp only
  rw [Handler.run_call]
  have answer : (providers.handler.respond ()
    (.post baseUrl completionsPath posted)).1 = .ok upstream := isAnswer
  rw [answer, Handler.run_ofExcept]
  exact congrArg Except.ok (seen_relayed received answers.clean)

/-- **The client sees through the relay.**  What it gets is what it would get
from the target of the request, which answers the very completion. -/
theorem relay_transparent (clean : (Json.obj target).Clean)
    (carried : result.content ≠ [] ∨ result.receipt ≠ []) :
    relayChat P (throughRelay U P codecs depth providers) target completion
        verifyReceipts = .ok result ↔
      ∃ status payload,
        Answers U P codecs depth providers target completion status payload ∧
          relayChat P (directAnswer status payload) target completion
            verifyReceipts = .ok result := by
  constructor
  · intro returned
    cases answered : throughRelay U P codecs depth providers
        (relayRequest target completion) with
    | error error =>
        unfold relayChat at returned
        rw [answered] at returned
        cases returned
    | ok response =>
        rcases throughRelay_cases distinct shallow answered with barren |
          ⟨status, payload, answers, rfl⟩
        · obtain ⟨noContent, noReceipt⟩ := barren.empty answered returned
          rcases carried with content | receipt
          · exact absurd noContent content
          · exact absurd noReceipt receipt
        · refine ⟨status, payload, answers, ?_⟩
          unfold relayChat at returned ⊢
          rwa [answered] at returned
  · rintro ⟨status, payload, answers, returned⟩
    unfold relayChat at returned ⊢
    rwa [throughRelay_answers distinct shallow clean answers]

end

/-- The node answers with the altered payload, which the client gets. -/
theorem relay_transparent_node : ∃ providers result,
    relayChat manifestTable.platform
        (throughRelay SipOpenaiProxy.asciiTables manifestTable.platform
          utf8Codecs 4 providers) nodeTarget sampleCompletion false =
      .ok result ∧ result.content = "altered" := by
  obtain ⟨distinct, shallow, _⟩ := node_request
  obtain ⟨posted, dumped⟩ := (dumpBytes_isOk false
    (.obj sampleCompletion)).mpr (by decide +kernel)
  obtain ⟨body, written⟩ := (dumpBytes_isOk false (.obj alteredPayload)).mpr
    (by decide +kernel)
  have read : bodyJson utf8Codecs 4 body = .ok (.obj alteredPayload) :=
    bodyJson_dumpBytes (by decide +kernel) (by decide +kernel) written
  have arrives : bodyJson utf8Codecs 4 posted = .ok (.obj sampleCompletion) :=
    bodyJson_dumpBytes (by decide +kernel) (by decide +kernel) dumped
  refine ⟨fun _ _ _ => .ok ⟨200, "application/json", body⟩,
    ⟨"altered", unsignedReceipt.set "signature" (.str relaySignature), 200,
      false⟩, ?_, rfl⟩
  refine (relay_transparent distinct shallow (by decide +kernel)
    (.inl (List.cons_ne_nil _ _))).mpr ⟨200, .obj alteredPayload, ?_, rfl⟩
  exact ⟨⟨_, posted, _, forwardTo_node, dumped, arrives, rfl, rfl, read⟩,
    by decide +kernel⟩

end SovereignInference.SipRelay
