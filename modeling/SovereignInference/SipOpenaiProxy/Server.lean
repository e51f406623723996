import SovereignInference.SipOpenaiProxy.Config

/-!
# The app server

The server holds the configuration, the local provider and the routing
backend, and mirrors the configuration in the config file.  Every mutating
route works out the new sources, puts them in place, saves them and builds the
backend anew.
-/

namespace SovereignInference.SipOpenaiProxy

open Python Effects SipProtocol SipDiscovery SipRouter

/-- A backend: the providers it routes to, its token, and the models. -/
structure ProxyBackend where
  providers : List ProviderEntry
  token : Json
  models : List Text

/-- The models of a trusted entry, which are strings. -/
def modelsOf (entry : ProviderEntry) : List Text :=
  (((entry.manifest.find "models").getD (.arr [])).asList.getD []).filterMap
    Json.asStr

/-- `build_backend` without a policy. -/
def buildBackend (registry : List ProviderEntry) (token : Json) :
    ProxyBackend :=
  ⟨registry, token, sortTexts (registry.flatMap modelsOf).dedup⟩

structure LocalProvider where
  entry : ProviderEntry
  runtime : Text
  model : Text

/-- Why a request fails: a status with its detail, the exception of a save, or
another exception. -/
inductive Failure where
  | http (status : Nat) (detail : Text)
  | unsaved (error : PyExc)
  | raised (error : PyExc)

structure ServerState where
  config : AppConfig
  localProvider : Option LocalProvider
  restoreWarning : Option Text
  buildWarnings : List Text
  backend : ProxyBackend
  file : ConfigFile

/-- What happens outside during a request: whether replacing the config file
raises, what the directories answer, and what starting a local model gives, or
the text of its exception. -/
structure Answers where
  saveRaises : Option PyExc
  discovered : Discovered
  startLocal : Except Text LocalProvider

/-- The sources of inference that a request asks for. -/
structure Wanted where
  config : AppConfig
  localProvider : Option LocalProvider

/-- A mutating request.  In the manifest that is read of a body no dict has a
key twice. -/
inductive Request where
  | completeOnboarding
  | addProvider (manifest : Dict) (baseUrl : Option Text)
      (distinct : (Json.obj manifest).DistinctKeys)
  | removeProvider (publicKey : Text)
  | addDirectory (spec : Text)
  | removeDirectory (spec : Text)
  | startLocalUse (runtime model : Text)
  | stopLocalUse

section

variable (P : Platform) (U : Unicode) (levels depth : Nat)

/-- `rebuild`. -/
def rebuild (discovered : Discovered) (s : ServerState) :
    Except PyExc ServerState := do
  let (registry, warnings) ← buildRegistry P U s.config discovered
  let entries := registry ++ (s.localProvider.map (·.entry)).toList
  return { s with
    backend := buildBackend entries s.config.token, buildWarnings := warnings }

def warnings (s : ServerState) : List Text :=
  (s.restoreWarning.filter (· ≠ [])).toList ++ s.buildWarnings

def snapshotEntry (entry : ProviderEntry) : Except PyExc Json := do
  let publicKey ← item (.obj entry.manifest) "provider_pubkey"
  return .obj [("provider_pubkey", publicKey),
    ("base_url", .str entry.baseUrl),
    ("models", (entry.manifest.find "models").getD (.arr []))]

def snapshotEntries : List ProviderEntry → Except PyExc (List Json)
  | [] => .ok []
  | entry :: rest => do
      let first ← snapshotEntry entry
      return first :: (← snapshotEntries rest)

def snapshot (s : ServerState) : Except PyExc Dict := do
  let providers ← snapshotEntries s.config.providers
  return [("onboarding_complete", .bool s.config.onboardingComplete),
    ("providers", .arr providers),
    ("directories", .arr (s.config.directories.map .str)),
    ("models", .arr (s.backend.models.map .str)),
    ("local_use", (s.config.localUse.map LocalUse.toJson).getD .null),
    ("warnings", .arr ((warnings s).map .str))]

/-- `_restore_local`: the local provider and the warning. -/
def restoreLocal (config : AppConfig) (startLocal : Except Text LocalProvider) :
    Option LocalProvider × Option Text :=
  match config.localUse, startLocal with
  | none, _ => (none, none)
  | some _, .ok localProvider => (some localProvider, none)
  | some localUse, .error message =>
      (none, some (text "local model " ++
        Json.strRepr P.isPrintable localUse.model ++
        text " could not be restored: " ++ message))

def boot (file : ConfigFile) (answers : Answers) :
    Except PyExc ServerState := do
  let config ← loadConfig P.isPrintable depth file
  let (localProvider, restoreWarning) :=
    restoreLocal P config answers.startLocal
  rebuild P U answers.discovered
    ⟨config, localProvider, restoreWarning, [], buildBackend [] .null, file⟩

-- A mutating route gives what it is about to put in place, or nothing if it
-- leaves everything as it is.

/-- An untrusted provider is answered with a 400. -/
def refused : SourceError → Failure
  | .untrusted message => .http 400 message
  | .raised error => .raised error

namespace ServerState

def completeOnboarding (s : ServerState) : Wanted :=
  ⟨{ s.config with onboardingComplete := true }, s.localProvider⟩

def addProvider (s : ServerState) (manifest : Dict)
    (baseUrl : Option Text) : Except Failure Wanted := do
  let entry ← (trustedProviderEntry P U manifest baseUrl true).mapError refused
  let merged ← (mergeProvider P s.config.providers entry).mapError refused
  return ⟨{ s.config with providers := merged }, s.localProvider⟩

def removeProvider (s : ServerState) (publicKey : Text) : Wanted :=
  let remaining := s.config.providers.filter fun entry =>
    !(entry.manifest.get "provider_pubkey").isStr publicKey
  ⟨{ s.config with providers := remaining }, s.localProvider⟩

def addDirectory (s : ServerState) (spec : Text) :
    Except Failure (Option Wanted) :=
  let remote := (text "http://").isPrefixOf spec ||
    (text "https://").isPrefixOf spec
  if remote && !isSafeRemoteUrl U spec then
    .error (.http 400 (text "directory URL " ++
      Json.strRepr P.isPrintable spec ++
      text " is not a safe public endpoint"))
  else if spec ∈ s.config.directories then .ok none
  else
    let directories := s.config.directories ++ [spec]
    .ok (some ⟨{ s.config with directories }, s.localProvider⟩)

def removeDirectory (s : ServerState) (spec : Text) : Option Wanted :=
  if spec ∈ s.config.directories then
    let directories := s.config.directories.filter (· ≠ spec)
    some ⟨{ s.config with directories }, s.localProvider⟩
  else none

def startLocalUse (s : ServerState) (startLocal : Except Text LocalProvider)
    (runtime model : Text) : Except Failure Wanted :=
  match startLocal with
  | .ok localProvider =>
      .ok ⟨{ s.config with localUse := some ⟨runtime, model⟩ },
        some localProvider⟩
  | .error message =>
      .error (.http 400 (text "could not start local model: " ++ message))

def stopLocalUse (s : ServerState) : Wanted :=
  ⟨{ s.config with localUse := none }, none⟩

def wanted (s : ServerState) (answers : Answers) :
    Request → Except Failure (Option Wanted)
  | .completeOnboarding => .ok (some s.completeOnboarding)
  | .addProvider manifest baseUrl _ =>
      some <$> s.addProvider P U manifest baseUrl
  | .removeProvider publicKey => .ok (some (s.removeProvider publicKey))
  | .addDirectory spec => s.addDirectory P U spec
  | .removeDirectory spec => .ok (s.removeDirectory spec)
  | .startLocalUse runtime model =>
      some <$> s.startLocalUse answers.startLocal runtime model
  | .stopLocalUse => .ok (some s.stopLocalUse)

/-- `state.local = ...`, `state.config = ...`. -/
def put (s : ServerState) (wanted : Wanted) : ServerState :=
  { s with config := wanted.config, localProvider := wanted.localProvider }

end ServerState

/-- The end of every mutating route: what is wanted is put in place, then it
is saved, and then the backend is built anew. -/
def commit (answers : Answers) (s : ServerState) (wanted : Wanted) :
    Except Failure Dict × ServerState :=
  let s := s.put wanted
  match saveConfig levels s.config answers.saveRaises with
  | .error error => (.error (.unsaved error), s)
  | .ok bytes =>
      let s := { s with file := some bytes }
      match rebuild P U answers.discovered s with
      | .error error => (.error (.raised error), s)
      | .ok s => ((snapshot s).mapError .raised, s)

/-- `_require_token`. -/
def authorized (adminToken presented : Option Text) : Bool :=
  adminToken.all (· = presented.getD [])

structure Event where
  presented : Option Text
  request : Request
  answers : Answers

/-- A mutating request: the response, and the state after it. -/
def respond (adminToken : Option Text) (event : Event) (s : ServerState) :
    Except Failure Dict × ServerState :=
  if !authorized adminToken event.presented then
    (.error (.http 401 "missing or invalid admin token"), s)
  else
    match s.wanted P U event.answers event.request with
    | .error failure => (.error failure, s)
    | .ok none => ((snapshot s).mapError .raised, s)
    | .ok (some wanted) => commit P U levels event.answers s wanted

end

end SovereignInference.SipOpenaiProxy
