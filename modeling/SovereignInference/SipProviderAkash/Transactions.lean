import SovereignInference.Effects.Traces
import SovereignInference.Python.JsonLimits
import SovereignInference.SipProviderAkash.Provider

/-!
# Transactions that fail on the chain

A command that submits a transaction may succeed although the chain refused
it; then its output has a code that is not zero.  Creating a deployment and a
lease looks at the code, closing a deployment does not.
-/

namespace SovereignInference.SipProviderAkash

open Python Effects

abbrev AkashEvent := Event AkashSig

/-- A code that is not zero, as a number or as the text of a number. -/
def NonZero : Json → Prop
  | .int code => code ≠ 0
  | .bool code => code = true
  | .float code => (code == 0) = false
  | .str code =>
      (∃ number, parseInt (strip isSpace code) = .ok number ∧ number ≠ 0) ∨
        ∃ number, parseFloat code = .ok number ∧ (number == 0) = false
  | _ => False

def codeOf (data : Dict) : Json := (data.find "code").getD (.int 0)

/-- A float is a whole number, and the text of a number is the text of an
integer. -/
def Legible : Json → Prop
  | .float code => ∃ number, intOfFloat code = .ok number ∧
      (number = 0 → (code == 0) = true)
  | .str code =>
      (∃ number, parseFloat code = .ok number ∧ (number == 0) = false) →
        ∃ number, parseInt (strip isSpace code) = .ok number ∧ number ≠ 0
  | _ => True

/-- `deployment create`, `market lease create` or `deployment close`. -/
def isTx (argv : List Text) : Bool := argv[1]? == some (text "tx")

def isClose (argv : List Text) : Bool :=
  isTx argv && argv[3]? == some (text "close")

/-- The output is a JSON object, however deep, with a code that is not zero. -/
def ReportsFailure (out : Text) : Prop :=
  ∃ depth data, Json.loads depth out = .ok (.obj data) ∧ NonZero (codeOf data)

/-- A transaction was submitted, and its output reports a failure. -/
def TxFailed : AkashEvent → Prop
  | ⟨.run argv, .ok out⟩ => isTx argv = true ∧ ReportsFailure out
  | _ => False

def IsComputeError (error : AkashExc) : Prop :=
  ∃ why, error = .computeError why

/-- If a transaction failed, a `ComputeError` was raised. -/
def Loud {α : Type} (trace : List AkashEvent) (outcome : Except AkashExc α) :
    Prop :=
  (∃ event ∈ trace, TxFailed event) →
    ∃ error, outcome = .error error ∧ IsComputeError error

/-- Closing a deployment does not fail, other transactions answer with legible
codes in objects that are not nested too deep, and the file with the manifest
can be removed. -/
def Plain (depth : Nat) : AkashEvent → Prop
  | ⟨.run argv, .ok out⟩ =>
      if isClose argv then ¬ ReportsFailure out
      else isTx argv = true → Json.loads depth out ≠ .error .recursionError ∧
        ∀ data, Json.loads depth out = .ok (.obj data) → Legible (codeOf data)
  | ⟨.unlink _, answer⟩ => answer = .ok ()
  | _ => True

private theorem asInt_nonZero {code : Json} (nonZero : NonZero code)
    (legible : Legible code) :
    ∃ number, asInt code = .ok number ∧ number ≠ 0 := by
  cases code with
  | int code => exact ⟨code, rfl, nonZero⟩
  | bool code =>
      rw [show code = true from nonZero]
      exact ⟨1, rfl, by decide⟩
  | float code =>
      obtain ⟨number, whole, onlyZero⟩ := legible
      refine ⟨number, whole, ?_⟩
      intro zero
      have same := onlyZero zero
      rw [show (code == 0) = false from nonZero] at same
      cases same
  | str code =>
      have isInteger : ∃ number,
          parseInt (strip isSpace code) = .ok number ∧ number ≠ 0 := by
        rcases nonZero with isInteger | isFloat
        · exact isInteger
        · exact legible isFloat
      obtain ⟨number, reads, different⟩ := isInteger
      exact ⟨number, by simp only [asInt, reads], different⟩
  | null => cases nonZero
  | arr items => cases nonZero
  | obj fields => cases nonZero

theorem requireTxOk_nonZero {data : Dict} (nonZero : NonZero (codeOf data))
    (legible : Legible (codeOf data)) (context : Text) :
    ∃ why, requireTxOk data context = .raise (.computeError why) := by
  obtain ⟨number, reads, different⟩ := asInt_nonZero nonZero legible
  unfold codeOf at reads
  unfold requireTxOk
  rw [reads, Prog.bind_eq, lift, Prog.bind_ret, if_pos different]
  exact ⟨_, rfl⟩

private theorem loads_unique {depth depth' : Nat} {out : Text}
    {value value' : Json} (first : Json.loads depth out = .ok value)
    (second : Json.loads depth' out = .ok value') : value = value' := by
  have raised := Json.loads_mono (Nat.le_max_left depth depth') first
  rw [Json.loads_mono (Nat.le_max_right depth depth') second] at raised
  exact (Except.ok.inj raised).symm

/-- The output of a transaction that failed is refused. -/
theorem parseJson_failure {depth : Nat} {out : Text}
    (failed : ReportsFailure out)
    (shallow : Json.loads depth out ≠ .error .recursionError)
    (legible : ∀ data, Json.loads depth out = .ok (.obj data) →
      Legible (codeOf data)) (context : Text) {α : Type}
    (rest : Dict → AkashProg α) :
    ∃ why, ((parseJson depth context out).bind fun data =>
      (requireTxOk data context).bind fun _ => rest data) =
        .raise (.computeError why) := by
  obtain ⟨depth', data, read, nonZero⟩ := failed
  unfold parseJson
  cases scanned : Json.loads depth out with
  | ok value =>
      obtain rfl := loads_unique read scanned
      obtain ⟨why, raises⟩ :=
        requireTxOk_nonZero nonZero (legible data scanned) context
      dsimp only
      rw [Prog.bind_ret, raises]
      exact ⟨why, rfl⟩
  | error error =>
      cases error with
      | recursionError => exact absurd scanned shallow
      | decodeError => exact ⟨_, rfl⟩
      | valueError => exact ⟨_, rfl⟩

section

variable {depth : Nat} {α : Type}

/-- If everything is plain, failed transactions make a `ComputeError`. -/
abbrev SignalsFailure (depth : Nat) (program : AkashProg α) : Prop :=
  Signals (Plain depth) TxFailed IsComputeError program

theorem signals_lift (outcome : Except PyExc α) :
    SignalsFailure depth (lift outcome) := by
  cases outcome with
  | ok value => exact signals_ret value
  | error error => exact signals_raise _

theorem signals_parseJson (context out : Text) :
    SignalsFailure depth (parseJson depth context out) := by
  unfold parseJson
  split
  · exact signals_ret _
  · exact signals_raise _
  · exact signals_raise _
  · exact signals_raise _

theorem signals_requireTxOk (data : Dict) (context : Text) :
    SignalsFailure depth (requireTxOk data context) := by
  apply (signals_lift _).bind
  intro code
  split_ifs
  · exact signals_raise _
  · exact signals_ret _

/-- A command that is no transaction cannot fail on the chain. -/
theorem signals_run {argv : List Text} (notTx : isTx argv = false) :
    SignalsFailure depth (run argv) := by
  rintro events outcome (_ | _ | ⟨answer, run⟩) _ ⟨event, member, failed⟩
  exfalso
  cases answer with
  | error error =>
      cases run
      rw [List.mem_singleton] at member
      subst member
      exact failed
  | ok out =>
      cases run
      rw [List.mem_singleton] at member
      subst member
      rw [failed.1] at notTx
      cases notTx

/-- A transaction other than `deployment close` has its code looked at. -/
theorem signals_submit {argv : List Text} (tx : isTx argv = true)
    (notClose : isClose argv = false) (context : Text)
    {rest : Dict → AkashProg α}
    (later : ∀ data, SignalsFailure depth (rest data)) :
    SignalsFailure depth ((run argv).bind fun out =>
      (parseJson depth context out).bind fun data =>
        (requireTxOk data context).bind fun _ => rest data) := by
  rintro _ outcome (_ | _ | ⟨answer, run⟩) allPlain faulty
  obtain ⟨plain, restPlain⟩ := List.forall_mem_cons.mp allPlain
  rw [List.exists_mem_cons_iff] at faulty
  cases answer with
  | error error =>
      cases run
      rcases faulty with failed | ⟨event, member, _⟩
      · cases failed
      · cases member
  | ok out =>
      by_cases failed : ReportsFailure out
      · simp only [Plain, notClose, Bool.false_eq_true, if_false] at plain
        obtain ⟨shallow, legible⟩ := plain tx
        obtain ⟨why, raises⟩ :=
          parseJson_failure failed shallow legible context rest
        simp only [output, Prog.bind_ret] at run
        rw [raises] at run
        cases run
        exact ⟨_, rfl, why, rfl⟩
      · have faultyLater := faulty.resolve_left fun here => failed here.2
        refine Signals.bind (signals_parseJson context out) ?_ _ _ run
          restPlain faultyLater
        intro data
        exact (signals_requireTxOk data context).bind fun _ => later data

/-- The cleanup runs however the body ends, and nothing fails in it. -/
theorem signals_tryFinally {body : AkashProg α} {cleanup : AkashProg Unit}
    (signals : SignalsFailure depth body)
    (succeeds : Succeeds (Plain depth) TxFailed cleanup) :
    SignalsFailure depth (tryFinally body cleanup) := by
  have cleanupSignals : SignalsFailure depth cleanup := by
    rintro events outcome run allPlain ⟨event, member, failed⟩
    exact absurd failed ((succeeds _ _ run allPlain).1 event member)
  unfold tryFinally
  apply Signals.bind
  · intro events outcome run allPlain faulty
    rcases run.of_tryCatch with ⟨value, returns, rfl⟩ |
      ⟨error, before, after, rfl, raises, run⟩
    · exact signals _ _ returns allPlain faulty
    · rw [List.forall_mem_append] at allPlain
      rcases run.of_bind with ⟨error', cleanupRaises, rfl⟩ |
        ⟨_, between, last, rfl, cleanupReturns, run⟩
      · obtain ⟨_, value, returned⟩ :=
          succeeds _ _ cleanupRaises allPlain.2
        cases returned
      · cases run
        rw [List.append_nil] at allPlain faulty
        obtain ⟨event, member, failed⟩ := faulty
        rcases List.mem_append.mp member with early | late
        · obtain ⟨_, same, alarming⟩ :=
            signals _ _ raises allPlain.1 ⟨event, early, failed⟩
          cases same
          exact ⟨error, rfl, alarming⟩
        · exact absurd failed
            ((succeeds _ _ cleanupReturns allPlain.2).1 event late)
  · intro value
    exact cleanupSignals.bind fun _ => signals_ret value

theorem succeeds_unlink (path : Text) :
    Succeeds (Plain depth) TxFailed (unlink path) := by
  rintro events outcome (_ | _ | ⟨answer, run⟩) allPlain
  have plain : answer = .ok () := allPlain _ List.mem_cons_self
  subst plain
  cases run
  refine ⟨?_, (), rfl⟩
  intro event member
  rw [List.mem_singleton] at member
  subst member
  exact id

end

namespace AkashProvider

variable (self : AkashProvider) (isPrintable : CodePoint → Bool) {depth : Nat}

private theorem signals_deployCommands (sdl : Dict) (sdlPath : Text) :
    SignalsFailure depth
      (self.deployCommands isPrintable depth sdl sdlPath) := by
  have writes : SignalsFailure depth (safeDump sdlPath sdl) := by
    rintro events outcome (_ | _ | ⟨answer, run⟩) _ ⟨event, member, failed⟩
    cases answer <;> cases run <;> rw [List.mem_singleton] at member <;>
      subst member <;> cases failed
  unfold deployCommands
  simp only [Prog.bind_eq]
  apply writes.bind
  intro _
  apply signals_submit rfl rfl
  intro created
  apply (signals_lift _).bind
  intro found
  cases found with
  | none => exact signals_raise _
  | some dseq =>
      apply (signals_run rfl).bind
      intro listed
      apply (signals_parseJson _ listed).bind
      intro bids
      apply (signals_lift _).bind
      intro picked
      cases picked with
      | none => exact signals_raise _
      | some providerAddr =>
          apply signals_submit rfl rfl
          intro lease
          apply (signals_run rfl).bind
          intro _
          exact signals_ret _

theorem signals_deploy (spec : InferenceSpec) :
    SignalsFailure depth (self.deploy isPrintable depth spec) := by
  have makes : SignalsFailure depth mkstemp := by
    rintro events outcome (_ | _ | ⟨answer, run⟩) _ ⟨event, member, failed⟩
    cases answer <;> cases run <;> rw [List.mem_singleton] at member <;>
      subst member <;> cases failed
  unfold deploy
  simp only [Prog.bind_eq]
  apply makes.bind
  intro sdlPath
  have commands : SignalsFailure depth (self.deployCommands isPrintable depth
      (buildSdl spec) sdlPath) :=
    self.signals_deployCommands isPrintable (buildSdl spec) sdlPath
  apply (signals_tryFinally commands (succeeds_unlink sdlPath)).bind
  intro found
  exact signals_ret _

private theorem performs_lift {α : Type} {outcome : Except PyExc α}
    {trace : List AkashEvent} {ended : Except AkashExc α}
    (run : Performs (lift outcome) trace ended) : trace = [] := by
  cases outcome <;> cases run <;> rfl

private theorem performs_leaseCoordinates {deployment : Deployment}
    {trace : List AkashEvent} {ended : Except AkashExc (Text × Text × Text)}
    (run : Performs (leaseCoordinates isPrintable deployment) trace
      ended) : trace = [] := by
  have convert : ∀ (value : Json) {rest : Text → AkashProg (Text × Text × Text)}
      {trace : List AkashEvent}, (∀ written trace,
        Performs (rest written) trace ended → trace = []) →
      Performs ((lift (value.toStr isPrintable)).bind rest) trace ended →
        trace = [] := by
    intro value rest trace later run
    rcases run.of_bind with ⟨error, raises, _⟩ |
      ⟨written, before, after, rfl, returns, run⟩
    · exact performs_lift raises
    · rw [performs_lift returns, later _ _ run]
      rfl
  unfold leaseCoordinates at run
  dsimp only at run
  split_ifs at run
  · simp only [Prog.bind_eq] at run
    refine convert _ (fun owner trace run => ?_) run
    refine convert _ (fun dseq trace run => ?_) run
    refine convert _ (fun providerAddr trace run => ?_) run
    cases run
    rfl
  · cases run
    rfl

/-- `teardown` performs nothing but `deployment close`, and returns whatever
the output is. -/
theorem performs_teardown {deployment : Deployment}
    {trace : List AkashEvent} {outcome : Except AkashExc Unit}
    (run : Performs (self.teardown isPrintable deployment) trace outcome) :
    (∀ event ∈ trace, ¬ TxFailed event) ∨
      ∃ argv out, isClose argv = true ∧ trace = [⟨.run argv, .ok out⟩] ∧
        outcome = .ok () := by
  unfold teardown at run
  simp only [Prog.bind_eq] at run
  rcases run.of_bind with ⟨error, raises, _⟩ |
    ⟨⟨owner, dseq, _⟩, before, after, rfl, returns, run⟩
  · left
    rw [performs_leaseCoordinates isPrintable raises]
    exact fun event member => by cases member
  · rw [performs_leaseCoordinates isPrintable returns, List.nil_append]
    rcases run with _ | _ | ⟨answer, run⟩
    cases answer with
    | error error =>
        left
        cases error <;> cases run <;> intro event member <;>
          rw [List.mem_singleton] at member <;> subst member <;> exact id
    | ok out =>
        cases run
        exact .inr ⟨self.closeArgv owner dseq, out, rfl, rfl, rfl⟩

private theorem signals_teardown (deployment : Deployment) :
    SignalsFailure depth (self.teardown isPrintable deployment) := by
  intro trace outcome run allPlain faulty
  rcases self.performs_teardown isPrintable run with silent |
    ⟨argv, out, closes, rfl, _⟩
  · obtain ⟨event, member, failed⟩ := faulty
    exact absurd failed (silent event member)
  · have plain := allPlain _ List.mem_cons_self
    simp only [Plain, closes, if_true] at plain
    obtain ⟨event, member, failed⟩ := faulty
    rw [List.mem_singleton] at member
    subst member
    exact absurd failed.2 plain

/-- `teardown` raises a `ComputeError` for a failed transaction exactly if
none failed.  In every `deploy` and every lifecycle whose events are plain, a
failed transaction raises a `ComputeError`. -/
theorem failures_loud :
    (∀ deployment trace outcome,
      Performs (self.teardown isPrintable deployment) trace outcome →
        (Loud trace outcome ↔ ∀ event ∈ trace, ¬ TxFailed event)) ∧
    (∀ depth spec trace outcome,
      Performs (self.deploy isPrintable depth spec) trace outcome →
        (∀ event ∈ trace, Plain depth event) → Loud trace outcome) ∧
    (∀ depth spec trace outcome,
      Performs (self.lifecycle isPrintable depth spec) trace outcome →
        (∀ event ∈ trace, Plain depth event) → Loud trace outcome) := by
  refine ⟨?_, ?_, ?_⟩
  · intro deployment trace outcome run
    constructor
    · intro loud event member failed
      obtain ⟨error, ended, _⟩ := loud ⟨event, member, failed⟩
      rcases self.performs_teardown isPrintable run with silent |
        ⟨_, _, _, _, returned⟩
      · exact silent event member failed
      · rw [ended] at returned
        cases returned
    · rintro silent ⟨event, member, failed⟩
      exact absurd failed (silent event member)
  · intro depth spec
    exact self.signals_deploy isPrintable spec
  · intro depth spec
    exact (self.signals_deploy isPrintable spec).bind fun deployment =>
      self.signals_teardown isPrintable deployment

def account : AkashProvider := { wallet := "deployer", owner := "akash1owner" }

/-- The output of a transaction that the chain refused. -/
def refused : Text :=
  text "\x7b\"code\": 11, \"raw_log\": \"insufficient funds\"\x7d"

theorem reportsFailure_refused : ReportsFailure refused := by
  refine ⟨1, [("code", .int 11), ("raw_log", .str "insufficient funds")], rfl,
    ?_⟩
  show (11 : Int) ≠ 0
  decide

def leased : Deployment where
  provider := "akash"
  id := "42"
  model := "llama3.2:3b"
  status := .deploying
  raw := [("owner", .str "akash1owner"), ("dseq", .str "42"),
    ("provider", .str "akash1provider"), ("gseq", .int 1), ("oseq", .int 1)]

def closeRefused : List AkashEvent :=
  [⟨.run (account.closeArgv "akash1owner" "42"), .ok refused⟩]

theorem performs_closeRefused :
    Performs (account.teardown (fun _ => true) leased) closeRefused (.ok ()) ∧
      ∃ event ∈ closeRefused, TxFailed event := by
  have called : account.teardown (fun _ => true) leased =
      .call (.run (account.closeArgv "akash1owner" "42")) fun answer =>
        ((output answer).tryCatch (closeHandler "42")).bind fun _ =>
          .ret () := rfl
  rw [called]
  refine ⟨?_, _, List.mem_cons_self, rfl, reportsFailure_refused⟩
  unfold closeRefused
  exact Performs.call _ (Performs.ret ())

/-- `teardown` returns although `deployment close` failed. -/
theorem teardown_silent : ¬ ∀ deployment trace outcome,
    Performs (account.teardown (fun _ => true) deployment) trace outcome →
      Loud trace outcome := by
  intro loud
  obtain ⟨closed, faulty⟩ := performs_closeRefused
  obtain ⟨error, same, _⟩ := loud leased _ _ closed faulty
  cases same

def llama : InferenceSpec where
  model := "llama3.2:3b"
  image := "ollama/ollama"

def createRefused : List AkashEvent :=
  [⟨.mkstemp, .ok "/tmp/sdl.yaml"⟩,
    ⟨.safeDump "/tmp/sdl.yaml" (buildSdl llama), .ok ()⟩,
    ⟨.run (account.createArgv "/tmp/sdl.yaml"), .ok refused⟩,
    ⟨.unlink "/tmp/sdl.yaml", .ok ()⟩]

def createFailure : AkashExc :=
  .computeError
    (.failedOnChain "deployment create" 11 (.str "insufficient funds"))

theorem performs_createRefused {α : Type} (rest : Deployment → AkashProg α) :
    Performs ((account.deploy (fun _ => true) 1 llama).bind rest)
      createRefused (.error createFailure) := by
  unfold createRefused createFailure
  apply Performs.call
  apply Performs.call
  apply Performs.call
  apply Performs.call
  exact Performs.raise _

private theorem createRefused_plain :
    ∀ event ∈ createRefused, Plain 1 event := by
  have read : Json.loads 1 refused = .ok (.obj [("code", .int 11),
      ("raw_log", .str "insufficient funds")]) := rfl
  have plain : Plain 1
      ⟨.run (account.createArgv "/tmp/sdl.yaml"), .ok refused⟩ := by
    simp only [Plain]
    rw [if_neg (by decide +kernel), read]
    intro _
    refine ⟨by simp, ?_⟩
    intro data same
    cases same
    trivial
  unfold createRefused
  simp only [List.forall_mem_cons]
  exact ⟨trivial, trivial, plain, rfl, fun event member => by cases member⟩

theorem failures_loud_refused :
    ¬ Loud closeRefused (.ok () : Except AkashExc Unit) ∧
      Loud createRefused (.error createFailure : Except AkashExc Deployment) ∧
      Loud createRefused (.error createFailure : Except AkashExc Unit) := by
  obtain ⟨onTeardown, onDeploy, onLifecycle⟩ :=
    failures_loud account (fun _ => true)
  obtain ⟨closed, event, member, failed⟩ := performs_closeRefused
  have deployed := performs_createRefused .ret
  rw [Prog.bind_ret_right] at deployed
  refine ⟨?_, ?_, ?_⟩
  · intro loud
    exact (onTeardown _ _ _ closed).mp loud event member failed
  · exact onDeploy 1 llama _ _ deployed createRefused_plain
  · exact onLifecycle 1 llama _ _ (performs_createRefused _) createRefused_plain

end AkashProvider

end SovereignInference.SipProviderAkash
