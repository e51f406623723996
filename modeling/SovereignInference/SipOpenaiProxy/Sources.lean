import SovereignInference.Collections.Pinning
import SovereignInference.Python.Url
import SovereignInference.SipDiscovery.Directory
import SovereignInference.SipRouter.Resolver

/-!
# Trusted sources

The registry of the desktop app is built from the saved providers and from
what directories list.  A manifest gets in if it verifies and says where to
reach the provider, at a safe address that no other key has taken.
-/

namespace SovereignInference.SipOpenaiProxy

open Python Effects SipProtocol SipDiscovery SipRouter Collections

structure LocalUse where
  runtime : Text
  model : Text
  deriving DecidableEq

/-- What is saved of the sources; the key and the token are as they were
loaded. -/
structure AppConfig where
  providers : List ProviderEntry
  directories : List Text
  apiKey : Json
  token : Json
  onboardingComplete : Bool
  localUse : Option LocalUse

/-- `AppConfig()`. -/
def AppConfig.default : AppConfig :=
  ⟨[], [], .null, .null, false, none⟩

/-- `UntrustedProvider` with its message, or another exception. -/
inductive SourceError where
  | untrusted (message : Text)
  | raised (error : PyExc)

def blockedHostnames : List Text :=
  ["localhost", "metadata", "metadata.google.internal"]

/-- `str.endswith`. -/
def endsWith (s literal : Text) : Bool := literal.isSuffixOf s

def isInternal (ip : IpAddress) : Bool :=
  ip.isPrivate || ip.isLoopback || ip.isLinkLocal || ip.isReserved ||
    ip.isMulticast || ip.isUnspecified

def isSafeRemoteUrl (U : Unicode) (url : Text) : Bool :=
  match Url.urlsplit U url with
  | none => false
  | some (scheme, host) =>
      if scheme ≠ "http" ∧ scheme ≠ "https" then false
      else if host = [] then false
      else
        let lowered := U.lower host
        if lowered ∈ blockedHostnames ∨ endsWith lowered ".localhost" then false
        else
          match IpAddress.parse host with
          | none => true
          | some ip => !isInternal ip

section

variable (P : Platform) (U : Unicode)

def trustedProviderEntry (manifest : Dict) (baseUrl : Option Text)
    (requireSafeUrl : Bool) : Except SourceError ProviderEntry := do
  if !(← (verifyProviderManifest P manifest).mapError .raised) then
    throw (.untrusted "provider manifest signature is invalid")
  match manifest.get "manifest_uri" with
  | .str uri =>
      if uri = [] then throw (.untrusted noUri)
      else if !baseUrl.all (· = uri) then
        throw (.untrusted (text "base_url " ++
          Json.strRepr P.isPrintable (baseUrl.getD []) ++
          text " does not match the signed manifest_uri " ++
          Json.strRepr P.isPrintable uri ++ text "; refusing to route"))
      else if requireSafeUrl && !isSafeRemoteUrl U uri then
        throw (.untrusted (text "manifest_uri " ++ Json.strRepr P.isPrintable uri ++
          text " is not a safe public endpoint"))
      else return ⟨uri, manifest⟩
  | _ => throw (.untrusted noUri)
where
  noUri : Text := "provider manifest has no manifest_uri to route to"

/-- `_pubkey`. -/
def pubkey (entry : ProviderEntry) : Except SourceError Text :=
  match entry.manifest.find "provider_pubkey" with
  | some value => (value.toStr P.isPrintable).mapError .raised
  | none => .error (.raised .keyError)

/-- The loop that looks for another key at the endpoint. -/
def refuseHijack (newKey : Text) (new : ProviderEntry) :
    List ProviderEntry → Except SourceError Unit
  | [] => .ok ()
  | entry :: rest => do
      if entry.baseUrl = new.baseUrl then
        if (← pubkey P entry) ≠ newKey then
          throw (.untrusted (text "endpoint " ++
            Json.strRepr P.isPrintable new.baseUrl ++
            text " is already pinned to a different provider key; " ++
            text "refusing to replace it"))
      refuseHijack newKey new rest

/-- The entries of other keys. -/
def otherKeys (newKey : Text) :
    List ProviderEntry → Except SourceError (List ProviderEntry)
  | [] => .ok []
  | entry :: rest => do
      let key ← pubkey P entry
      let kept ← otherKeys newKey rest
      return if key ≠ newKey then entry :: kept else kept

def mergeProvider (existing : List ProviderEntry) (new : ProviderEntry) :
    Except SourceError (List ProviderEntry) := do
  let newKey ← pubkey P new
  refuseHijack P newKey new existing
  let kept ← otherKeys P newKey existing
  return kept ++ [new]

/-- The pinned entries and the warnings so far. -/
structure Build where
  pinned : List ProviderEntry
  warnings : List Text

/-- An entry of a source, with the label it has in warnings. -/
structure SourceEntry where
  label : Text
  entry : ProviderEntry

/-- The warning of a dropped entry. -/
def SourceEntry.dropped (source : SourceEntry) (message : Text) : Text :=
  text "dropped " ++ source.label ++ text ": " ++ message

/-- `_try_add`, which every source calls with a safe address required. -/
def tryAdd (build : Build) (source : SourceEntry) : Except PyExc Build :=
  let merged := do
    let entry ← trustedProviderEntry P U source.entry.manifest
      (some source.entry.baseUrl) true
    mergeProvider P build.pinned entry
  match merged with
  | .ok pinned => .ok { build with pinned }
  | .error (.untrusted message) =>
      .ok { build with warnings := build.warnings ++ [source.dropped message] }
  | .error (.raised error) => .error error

/-- What asking each of the directories gives: what was found, or the text of
the exception. -/
abbrev Discovered := (index : Nat) → Except Text (List DiscoveredProvider)

def savedSource (entry : ProviderEntry) : SourceEntry :=
  ⟨text "provider " ++ entry.baseUrl, entry⟩

def foundSource (provider : DiscoveredProvider) : SourceEntry :=
  ⟨text "directory provider " ++ provider.baseUrl,
    ⟨provider.baseUrl, provider.manifest⟩⟩

/-- The warning for a directory that cannot be asked. -/
def unreachable (spec message : Text) : Text :=
  text "directory " ++ Json.strRepr P.isPrintable spec ++ text " unreachable: " ++
    message

def addDirectory (discovered : Discovered) (build : Build)
    (directory : Text × Nat) : Except PyExc Build :=
  match discovered directory.2 with
  | .ok providers => (providers.map foundSource).foldlM (tryAdd P U) build
  | .error message => .ok { build with
      warnings := build.warnings ++ [unreachable P directory.1 message] }

/-- `build_registry`, with what the directories answer. -/
def buildRegistry (config : AppConfig) (discovered : Discovered) :
    Except PyExc (List ProviderEntry × List Text) := do
  let build ← (config.providers.map savedSource).foldlM (tryAdd P U) ⟨[], []⟩
  let build ← config.directories.zipIdx.foldlM (addDirectory P U discovered) build
  return (build.pinned, build.warnings)

end

end SovereignInference.SipOpenaiProxy
