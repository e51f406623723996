import SovereignInference.SipRouter.Attempts
import SovereignInference.SipProtocol.Verification

/-!
# Failing over from provider to provider

The candidates are tried in order until one serves.  Failed attempts leave the
wallet as it was, so a route costs what its last attempt sent, and nothing if
no provider served.
-/

namespace SovereignInference.SipRouter

open Python Effects SipProtocol SipPic

variable {P : Platform} {options : ChatOptions} {requestId : Text}
  {state : NetworkState} {meets : NetworkState → RouterEvent → Prop}

/-- The clients of the attempts at some candidates. -/
def clientsFrom : Nat → List ProviderEntry → List HttpClient
  | _, [] => []
  | attempt, candidate :: rest =>
      ⟨attempt, candidate.baseUrl⟩ :: clientsFrom (attempt + 1) rest

theorem le_attempt_of_mem {start : Nat} {candidates : List ProviderEntry}
    {client : HttpClient} (member : client ∈ clientsFrom start candidates) :
    start ≤ client.attempt := by
  induction candidates generalizing start with
  | nil => cases member
  | cons candidate rest induction =>
      rcases List.mem_cons.mp member with rfl | later
      · exact le_refl _
      · have beyond := induction later
        omega

/-- Exactly these clients have contacted a provider, one health check each and
no more than two completions. -/
def Visits (clients : List HttpClient) (before after : NetworkState) : Prop :=
  ∃ later, after.trace = before.trace ++ later ∧
    (∀ event ∈ later, ∀ client, contactOf event = some client →
      client ∈ clients) ∧
    (∀ client, completionsBy client later ≤ 2) ∧
    later.filterMap healthCheckOf = clients

theorem Visits.refl (state : NetworkState) : Visits [] state state :=
  ⟨[], by simp, by simp, by simp [completionsBy], rfl⟩

theorem completionsBy_eq_zero {client : HttpClient}
    {trace : List RouterEvent}
    (absent : ∀ event ∈ trace, contactOf event ≠ some client) :
    completionsBy client trace = 0 := by
  rw [completionsBy, List.countP_eq_zero]
  intro event member
  simp [absent event member]

theorem Visits.cons {client : HttpClient} {clients : List HttpClient}
    {before middle after : NetworkState} (fresh : client ∉ clients)
    (first : Contacts client 2 [client] before middle)
    (rest : Visits clients middle after) :
    Visits (client :: clients) before after := by
  obtain ⟨early, sameEarly, own, few, checks⟩ := first
  obtain ⟨later, sameLater, others, fewLater, checksLater⟩ := rest
  refine ⟨early ++ later, by rw [sameLater, sameEarly, List.append_assoc],
    ?_, ?_, ?_⟩
  · intro event member other contacts
    rcases List.mem_append.mp member with inEarly | inLater
    · rw [own event inEarly other contacts]
      exact List.mem_cons_self
    · exact List.mem_cons_of_mem _ (others event inLater other contacts)
  · intro other
    have split : completionsBy other (early ++ later) =
        completionsBy other early + completionsBy other later :=
      List.countP_append
    rw [split]
    by_cases isFirst : other = client
    · have none : completionsBy other later = 0 := by
        apply completionsBy_eq_zero
        intro event member contacts
        exact fresh (isFirst ▸ others event member other contacts)
      rw [none, isFirst]
      exact few
    · have none : completionsBy other early = 0 := by
        apply completionsBy_eq_zero
        intro event member contacts
        exact isFirst (own event member other contacts)
      rw [none, Nat.zero_add]
      exact fewLater other
  · rw [List.filterMap_append, checks, checksLater]
    rfl

/-- One record of a failure for each candidate. -/
def FailureRecords (candidates : List ProviderEntry)
    (records : List (Text × Text)) : Prop :=
  records.map (·.1) = candidates.map (·.baseUrl) ∧
    ∀ record ∈ records, record.2 ≠ text "ok"

/-- How the walk over the candidates ends. -/
inductive Routed (P : Platform) (options : ChatOptions)
    (candidates : List ProviderEntry) (attempts : List (Text × Text))
    (state : NetworkState) :
    Except RouterExc RouteResult → NetworkState → Prop where
  | exhausted {records : List (Text × Text)} {after : NetworkState} :
      FailureRecords candidates records →
      Visits (clientsFrom attempts.length candidates) state after →
      Conserves state after [] →
      Routed P options candidates attempts state
        (.error (.noProviderAvailable options.model (attempts ++ records)))
        after
  | raised (error : PyExc) (after : NetworkState) :
      Routed P options candidates attempts state (.error (.raised error)) after
  | served {tried rest : List ProviderEntry} {candidate : ProviderEntry}
      {records : List (Text × Text)} {result : Served}
      {providerPubkey : Json} {after : NetworkState} :
      candidates = tried ++ candidate :: rest →
      FailureRecords tried records →
      Visits (clientsFrom attempts.length (tried ++ [candidate]))
        state after →
      entryPubkey candidate = .ok providerPubkey →
      ServedFrom P options
        ⟨attempts.length + tried.length, candidate.baseUrl⟩ candidate state
        after result →
      Routed P options candidates attempts state
        (.ok ⟨result.content, result.receipt, providerPubkey,
          candidate.baseUrl, result.quote,
          attempts ++ records ++ [(candidate.baseUrl, text "ok")]⟩) after

theorem ServedFrom.from {client : HttpClient} {candidate : ProviderEntry}
    {start after : NetworkState} {result : Served}
    (served : ServedFrom P options client candidate state after result)
    (conserves : Conserves start state []) :
    ServedFrom P options client candidate start after result := by
  obtain ⟨checked, body, sent, lastBody, pays, wallet⟩ := served
  exact ⟨checked, body, sent, lastBody, pays, conserves.trans wallet⟩

/-- A failed attempt in front of a walk. -/
theorem Routed.cons {candidate : ProviderEntry}
    {rest : List ProviderEntry} {attempts : List (Text × Text)}
    {label : Text} {middle after : NetworkState}
    {outcome : Except RouterExc RouteResult}
    (notOk : label ≠ text "ok") (conserves : Conserves state middle [])
    (contacts : Contacts ⟨attempts.length, candidate.baseUrl⟩ 2
      [⟨attempts.length, candidate.baseUrl⟩] state middle)
    (routed : Routed P options rest
      (attempts ++ [(candidate.baseUrl, label)]) middle outcome after) :
    Routed P options (candidate :: rest) attempts state outcome after := by
  have records : ∀ {others : List ProviderEntry} {later},
      FailureRecords others later →
        FailureRecords (candidate :: others)
          ((candidate.baseUrl, label) :: later) := by
    intro others later failures
    refine ⟨by simp [failures.1], ?_⟩
    intro record member
    rcases List.mem_cons.mp member with rfl | inLater
    · exact notOk
    · exact failures.2 record inLater
  have visits : ∀ {others : List ProviderEntry},
      Visits (clientsFrom (attempts ++ [(candidate.baseUrl, label)]).length
        others) middle after →
          Visits (clientsFrom attempts.length (candidate :: others))
            state after := by
    intro others rest
    rw [List.length_append, List.length_singleton] at rest
    refine Visits.cons ?_ contacts rest
    intro member
    have beyond := le_attempt_of_mem member
    dsimp only at beyond
    omega
  cases routed with
  | exhausted failures visited wallet =>
      rw [List.append_assoc]
      exact .exhausted (records failures) (visits visited)
        (conserves.trans wallet)
  | raised error after => exact .raised error after
  | @served tried others server later result providerPubkey after split
      failures visited pubkey served =>
      have sameAttempts : attempts ++ [(candidate.baseUrl, label)] ++ later ++
          [(server.baseUrl, text "ok")] =
            attempts ++ ((candidate.baseUrl, label) :: later) ++
              [(server.baseUrl, text "ok")] := by simp
      rw [sameAttempts]
      refine .served (by rw [split]; rfl) (records failures)
        (visits visited) pubkey ?_
      have sameAttempt : (attempts ++ [(candidate.baseUrl, label)]).length +
          tried.length = attempts.length + (candidate :: tried).length := by
        simp only [List.length_append, List.length_cons, List.length_nil]
        omega
      rw [← sameAttempt]
      exact served.from conserves

theorem wp_tryCandidates (candidates : List ProviderEntry)
    (attempts : List (Text × Text)) :
    (tryCandidates P options requestId candidates attempts).wp
      (freeNetwork meets) (Routed P options candidates attempts state)
      state := by
  induction candidates generalizing attempts state with
  | nil =>
      have exhausted : Routed P options [] attempts state
          (.error (.noProviderAvailable options.model (attempts ++ [])))
          state :=
        .exhausted ⟨rfl, by simp⟩ (Visits.refl state) (conserves_same rfl)
      rw [List.append_nil] at exhausted
      exact exhausted
  | cons candidate rest induction =>
      unfold tryCandidates
      rw [Prog.bind_eq, Prog.wp_bind]
      refine Prog.wp_mono _ ?_ wp_tryCandidate
      intro outcome middle tried
      obtain ⟨error, rfl⟩ | ⟨contacts, attempt, rfl, ended⟩ := tried
      · exact .raised error middle
      cases ended with
      | failed notOk wallet =>
          refine Prog.wp_mono _ ?_ (induction _)
          intro outcome after routed
          exact routed.cons notOk wallet contacts
      | served servedFrom =>
          dsimp only [Prog.afterBind, Attempt.served]
          rw [Prog.bind_eq, Prog.wp_bind, wp_lift]
          cases pubkey : entryPubkey candidate with
          | error error => exact .raised error middle
          | ok providerPubkey =>
              have visited : Visits (clientsFrom attempts.length [candidate])
                  state middle :=
                Visits.cons (by simp [clientsFrom]) contacts
                  (Visits.refl middle)
              have failures : FailureRecords [] [] := ⟨rfl, by simp⟩
              have routed := fun split : candidate :: rest =
                  [] ++ candidate :: rest =>
                @Routed.served P options _ attempts state [] rest candidate []
                  _ providerPubkey middle split failures visited pubkey
                  servedFrom
              rw [List.append_nil] at routed
              exact routed rfl

theorem Visits.afterQuiet {clients : List HttpClient}
    {before middle after : NetworkState} (quiet : Quiet before middle)
    (visits : Visits clients middle after) : Visits clients before after := by
  obtain ⟨early, sameEarly, silent⟩ := quiet
  obtain ⟨later, sameLater, others, few, checks⟩ := visits
  refine ⟨early ++ later, by rw [sameLater, sameEarly, List.append_assoc],
    ?_, ?_, ?_⟩
  · intro event member client contacts
    rcases List.mem_append.mp member with inEarly | inLater
    · rw [silent event inEarly] at contacts
      cases contacts
    · exact others event inLater client contacts
  · intro client
    have none : completionsBy client early = 0 := by
      apply completionsBy_eq_zero
      intro event member
      simp [silent event member]
    have split : completionsBy client (early ++ later) =
        completionsBy client early + completionsBy client later :=
      List.countP_append
    rw [split, none, Nat.zero_add]
    exact few client
  · rw [List.filterMap_append, checks, List.filterMap_eq_nil_iff.mpr]
    · rfl
    · intro event member
      exact healthCheckOf_quiet (silent event member)

theorem Routed.afterQuiet {candidates : List ProviderEntry}
    {attempts : List (Text × Text)} {middle after : NetworkState}
    {outcome : Except RouterExc RouteResult} (quiet : Quiet state middle)
    (sameWallet : middle.wallet = state.wallet)
    (routed : Routed P options candidates attempts middle outcome after) :
    Routed P options candidates attempts state outcome after := by
  have conserves := conserves_same sameWallet
  cases routed with
  | exhausted failures visited wallet =>
      exact .exhausted failures (visited.afterQuiet quiet)
        (conserves.trans wallet)
  | raised error after => exact .raised error after
  | served split failures visited pubkey served =>
      exact .served split failures (visited.afterQuiet quiet) pubkey
        (served.from conserves)

/-- How a call of `chat` ends. -/
def ChatEnds (P : Platform) (options : ChatOptions)
    (registry : List ProviderEntry) (state : NetworkState)
    (outcome : Except RouterExc RouteResult) (after : NetworkState) : Prop :=
  (∃ error, outcome = .error (.raised error)) ∨
    ∃ candidates, candidatesOf options registry = .ok candidates ∧
      Routed P options candidates [] state outcome after

theorem wp_chat (registry : List ProviderEntry) :
    (chat P options registry).wp (freeNetwork meets)
      (ChatEnds P options registry state) state := by
  unfold chat
  rw [Prog.bind_eq, Prog.wp_bind, wp_lift]
  cases resolves : candidatesOf options registry with
  | error error => exact .inl ⟨error, rfl⟩
  | ok candidates =>
      rw [mapError_ok]
      dsimp only [Prog.afterBind]
      rw [Prog.bind_eq, newRequestId, Prog.bind_call, wp_call_network]
      refine ⟨trivial, ?_⟩
      intro requestId _ _
      rw [Prog.bind_ret]
      refine Prog.wp_mono _ ?_ (wp_tryCandidates candidates [])
      intro outcome after routed
      exact .inr ⟨candidates, resolves,
        routed.afterQuiet (Quiet.step rfl state) rfl⟩

/-- **No voucher is lost or doubled by failing over.** -/
theorem wallet_conserved {registry : List ProviderEntry}
    {wallet : List HeldVoucher} {final : NetworkState}
    {outcome : Except RouterExc RouteResult}
    (distinct : (wallet.map (·.identity)).Nodup)
    (run : Exec anyNetwork ⟨wallet, []⟩ (chat P options registry) final
      outcome) :
    (∀ model attempts,
      outcome = .error (.noProviderAvailable model attempts) →
        final.wallet.Perm wallet) ∧
    (∀ result, outcome = .ok result →
      ∃ client body sent, lastCompletion final.trace = some (client, body) ∧
        client.attempt + 1 = result.attempts.length ∧
        client.baseUrl = result.baseUrl ∧
        vouchersSent body = sent.map (fun held => .obj held.voucher) ∧
        (final.wallet ++ sent).Perm wallet) := by
  rcases Prog.wp_sound run (wp_chat registry) with ⟨error, rfl⟩ |
    ⟨candidates, _, routed⟩
  · exact ⟨by simp, by simp⟩
  · cases routed with
    | exhausted failures visited conserves =>
        refine ⟨?_, by simp⟩
        intro model attempts _
        simpa using conserves distinct
    | raised error after => exact ⟨by simp, by simp⟩
    | served split failures visited pubkey served =>
        refine ⟨by simp, ?_⟩
        intro result isResult
        cases isResult
        obtain ⟨_, body, sent, lastBody, pays, conserves⟩ := served
        refine ⟨_, body, sent, lastBody, ?_, rfl, pays, conserves distinct⟩
        have sameLength := congrArg List.length failures.1
        rw [List.length_map, List.length_map] at sameLength
        simp [sameLength]

def twoEntries : List ProviderEntry :=
  [⟨"http://a", [("models", .arr [.str "m"]), ("provider_pubkey", .str "A")]⟩,
    ⟨"http://b", [("models", .arr [.str "m"]), ("provider_pubkey", .str "B")]⟩]

def sampleWallet : List HeldVoucher :=
  [⟨0, [("unit", .str "pic"), ("denomination", .str "2")]⟩,
    ⟨1, [("unit", .str "pic"), ("denomination", .str "0.5")]⟩]

def healthyAnswer : Except Text Response :=
  .ok ⟨200, .ok (.obj [("status", .str "ok")])⟩

def challengeAnswer (challenge : Dict) : Except Text Response :=
  .ok ⟨402, .ok (.obj [("sip_payment_required", .obj challenge)])⟩

/-- A completion with a content and a receipt. -/
def servedAnswer (content : Text) (receipt : Json) : Except Text Response :=
  .ok ⟨200, .ok (.obj [("choices", .arr [.obj [("message",
    .obj [("content", .str content)])]]), ("sip_receipt", receipt)])⟩

/-- The first provider rejects the paid retry, the second serves it. -/
def rejectedThenServed : Script where
  requestId := "r"
  nonce := "n"
  now := ⟨63902822460000000, some 0⟩
  answers := [healthyAnswer,
    challengeAnswer (paymentRequired "1" "pic" [] ["pic"]), .ok ⟨500, .ok .null⟩,
    healthyAnswer,
    challengeAnswer (paymentRequired "0.5" "pic" [] ["pic"]),
    servedAnswer "hi" .null]

def payingOptions : ChatOptions where
  model := "m"
  messages := []
  verifyReceipts := false
  wallet := true

theorem wallet_conserved_rejected : ∃ result final,
    Exec anyNetwork ⟨sampleWallet, []⟩
        (chat emptyTable.platform payingOptions twoEntries) final
        (.ok result) ∧
      ∃ client body sent, lastCompletion final.trace = some (client, body) ∧
        client.attempt + 1 = result.attempts.length ∧
        client.baseUrl = result.baseUrl ∧
        vouchersSent body = sent.map (fun held => .obj held.voucher) ∧
        (final.wallet ++ sent).Perm sampleWallet := by
  have run := rejectedThenServed.exec
    (chat emptyTable.platform payingOptions twoEntries) sampleWallet
  have serves : (rejectedThenServed.run
      (chat emptyTable.platform payingOptions twoEntries)
      sampleWallet).1.toBool = true := by
    decide +kernel
  cases ran : (rejectedThenServed.run
      (chat emptyTable.platform payingOptions twoEntries) sampleWallet).1 with
  | error error =>
      rw [ran] at serves
      cases serves
  | ok result =>
      rw [ran] at run
      exact ⟨result, _, run,
        (wallet_conserved (by decide) run).2 result rfl⟩

end SovereignInference.SipRouter
