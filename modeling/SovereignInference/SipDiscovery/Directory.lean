import SovereignInference.Collections.Freshest
import SovereignInference.Python.JsonBytes
import SovereignInference.SipArweave.LocalAnchor
import SovereignInference.SipProtocol.Artifacts
import SovereignInference.SipProtocol.SignatureTable
import Mathlib.Data.List.Lex

/-!
# Provider directories

A directory lists manifests; discovery keeps the verified ones that say where
to reach the provider, selects those that serve a model, and of these the
freshest of each provider key.
-/

namespace SovereignInference.SipDiscovery

open Python Effects SipProtocol SipArweave Collections

/-- A verified provider found in a directory. -/
structure DiscoveredProvider where
  baseUrl : Text
  manifest : Dict

namespace DiscoveredProvider

variable (P : Platform) (provider : DiscoveredProvider)

def providerPubkey : Except PyExc Text :=
  match provider.manifest.find "provider_pubkey" with
  | some value => value.toStr P.isPrintable
  | none => .error .keyError

def models : Except PyExc (List Json) :=
  ((provider.manifest.find "models").getD (.arr [])).iterate

def publishedAt : Except PyExc Text :=
  ((provider.manifest.find "published_at").getD (.str [])).toStr P.isPrintable

def serves (model : Text) : Except PyExc Bool := do
  return (← provider.models).any (Json.isStr model)

end DiscoveredProvider

section

variable (P : Platform)

/-- The entries of the dict `freshest`. -/
abbrev KeptProviders := List (Text × DiscoveredProvider)

/-- `freshest[pubkey] = provider`. -/
def KeptProviders.set (kept : KeptProviders) (pubkey : Text)
    (provider : DiscoveredProvider) : KeptProviders :=
  if kept.any (·.1 = pubkey) then
    kept.map fun entry =>
      if entry.1 = pubkey then (pubkey, provider) else entry
  else kept ++ [(pubkey, provider)]

/-- `model is None or provider.serves(model)`. -/
def isWanted (model : Option Text) (provider : DiscoveredProvider) :
    Except PyExc Bool :=
  match model with
  | none => .ok true
  | some model => provider.serves model

/-- One turn of the loop. -/
def keepProvider (model : Option Text) (kept : KeptProviders)
    (provider : DiscoveredProvider) : Except PyExc KeptProviders := do
  if !(← isWanted model provider) then return kept
  let pubkey ← provider.providerPubkey P
  match kept.lookup pubkey with
  | none => return kept.set pubkey provider
  | some existing =>
      let published ← provider.publishedAt P
      let existingPublished ← existing.publishedAt P
      if existingPublished < published then return kept.set pubkey provider
      else return kept

def filterAndDedupe (model : Option Text)
    (providers : List DiscoveredProvider) :
    Except PyExc (List DiscoveredProvider) := do
  let kept ← providers.foldlM (keepProvider P model) []
  return kept.map (·.2)

/-- A listed manifest, unless it is not verified or says no endpoint. -/
def verifiedProvider (manifest : Dict) :
    Except PyExc (Option DiscoveredProvider) := do
  if !(← verifyProviderManifest P manifest) then return none
  match manifest.get "manifest_uri" with
  | .str uri => return if uri = [] then none else some ⟨uri, manifest⟩
  | _ => return none

/-- An entry of a directory, which is skipped if it is not a dict.  To obtain
it may raise. -/
abbrev Entry := Except PyExc (Option Dict)

/-- The loop obtains each entry and verifies it before the next. -/
def verifiedProviders :
    List Entry → Except PyExc (List DiscoveredProvider)
  | [] => .ok []
  | entry :: rest => do
      match ← entry with
      | none => verifiedProviders rest
      | some manifest =>
          let found ← verifiedProvider P manifest
          return found.toList ++ (← verifiedProviders rest)

/-- What an anchor gives for a uri, and how its JSON is read. -/
structure AnchorReader where
  get : Text → Except AnchorExc Bytes
  codecs : Codecs
  depth : Nat

/-- `_resolve`: a dict, or nothing where there is none to be had. -/
def AnchorReader.resolve (anchor : AnchorReader) (uri : Text) : Entry :=
  match anchor.get uri with
  | .error (.anchorError _) => .ok none
  | .error (.raised error) =>
      if error.isValueError ∨ error = .osError then .ok none
      else .error error
  | .ok raw =>
      match loadsBytes anchor.codecs anchor.depth raw with
      | some (.ok value) => .ok value.asDict
      | some (.error .recursionError) => .error .recursionError
      | _ => .ok none

/-- An Arweave directory with the uris its query gives, if it has a query, and
its anchor; or a hosted directory with the payload of its response. -/
inductive Directory where
  | arweave (query : Option (Except PyExc (List Text))) (anchor : AnchorReader)
  | http (payload : Except PyExc Json)

/-- `payload.get("providers", [])`, if the payload is a dict. -/
def listedProviders (payload : Json) : Json :=
  match payload.asDict with
  | some fields => (fields.find "providers").getD (.arr [])
  | none => .arr []

/-- What the loop of `discover` goes over. -/
def Directory.listing : Directory → Except PyExc (List Entry)
  | .arweave none _ => .error .discoveryError
  | .arweave (some query) anchor => do return (← query).map anchor.resolve
  | .http payload => do
      let listed ← (listedProviders (← payload)).iterate
      return listed.map fun manifest => .ok manifest.asDict

def Directory.providers (directory : Directory) :
    Except PyExc (List DiscoveredProvider) := do
  verifiedProviders P (← directory.listing)

def Directory.discover (directory : Directory) (model : Option Text) :
    Except PyExc (List DiscoveredProvider) := do
  filterAndDedupe P model (← directory.providers P)

end

namespace DiscoveredProvider

/-- The key a verified manifest names. -/
def pubkey (provider : DiscoveredProvider) : Text :=
  (provider.manifest.get "provider_pubkey").asStr.getD []

/-- When a verified manifest was published. -/
def published (provider : DiscoveredProvider) : Text :=
  (provider.manifest.get "published_at").asStr.getD []

/-- A verified manifest lists the model. -/
def lists (model : Text) (provider : DiscoveredProvider) : Bool :=
  ((provider.manifest.get "models").asList.getD []).any (Json.isStr model)

/-- What the loop reads of a provider can be read. -/
structure Readable (P : Platform) (provider : DiscoveredProvider) : Prop where
  pubkey : provider.providerPubkey P = .ok provider.pubkey
  published : provider.publishedAt P = .ok provider.published
  serves : ∀ model, provider.serves model = .ok (provider.lists model)

end DiscoveredProvider

variable {P : Platform} {model : Text} {kept : List DiscoveredProvider}
  {provider : DiscoveredProvider} {providers : List DiscoveredProvider}

theorem readable_of_valid (sound : P.SchemaSound) {manifest : Dict} {uri : Text}
    (verified : verifyProviderManifest P manifest = .ok true) :
    DiscoveredProvider.Readable P ⟨uri, manifest⟩ := by
  have noErrors : P.schemaErrors Schemas.providerManifest (.obj manifest) =
      [] := by
    rw [← iterErrors_isEmpty]
    unfold verifyProviderManifest at verified
    by_contra errors
    rw [if_neg errors] at verified
    cases verified
  rw [sound] at noErrors
  obtain ⟨fields, same, required, properties⟩ := Schema.record_valid noErrors
  cases same
  obtain ⟨key, keyFound⟩ := required "provider_pubkey" (by decide)
  obtain ⟨published, publishedFound⟩ := required "published_at" (by decide)
  obtain ⟨models, modelsFound⟩ := required "models" (by decide)
  obtain ⟨keyText, rfl, _⟩ := Schema.string_valid
    (properties ("provider_pubkey", Schemas.publicKey) (by simp) _ keyFound)
  obtain ⟨publishedText, rfl, _⟩ := Schema.string_valid
    (properties ("published_at", .string []) (by simp) _ publishedFound)
  have typed := (Schema.allValid_iff _ _).mp
    (properties ("models",
      .all [.type .array, .items (.string []), .minItems 1]) (by simp) _
      modelsFound) (.type .array) List.mem_cons_self
  obtain ⟨items, rfl⟩ : ∃ items, models = .arr items := by
    cases models with
    | arr items => exact ⟨items, rfl⟩
    | _ => simp [Schema.valid, TypeName.holds] at typed
  constructor
  · simp [DiscoveredProvider.providerPubkey, DiscoveredProvider.pubkey,
      Dict.get, keyFound, Json.toStr, Json.asStr]
  · simp [DiscoveredProvider.publishedAt, DiscoveredProvider.published,
      Dict.get, publishedFound, Json.toStr, Json.asStr]
  · intro model
    simp [DiscoveredProvider.serves, DiscoveredProvider.models,
      DiscoveredProvider.lists, Dict.get, modelsFound, Json.iterate,
      Json.asList]

theorem verifiedProvider_some {manifest : Dict}
    (found : verifiedProvider P manifest = .ok (some provider)) :
    verifyProviderManifest P manifest = .ok true ∧
      provider.manifest = manifest := by
  unfold verifiedProvider at found
  obtain ⟨valid, verified, found⟩ := bind_eq_ok.mp found
  cases valid with
  | false => cases found
  | true =>
      refine ⟨verified, ?_⟩
      simp only [Bool.not_true, Bool.false_eq_true, if_false] at found
      split at found
      · split_ifs at found
        · cases found
        · cases found
          rfl
      · cases found

theorem verifiedProvider_ok {manifest : Dict} {uri : Text}
    (verified : verifyProviderManifest P manifest = .ok true)
    (located : manifest.get "manifest_uri" = .str uri) (nonempty : uri ≠ []) :
    verifiedProvider P manifest = .ok (some ⟨uri, manifest⟩) := by
  unfold verifiedProvider
  simp [verified, located, nonempty]

theorem verifiedProviders_readable (sound : P.SchemaSound)
    {entries : List Entry}
    (verified : verifiedProviders P entries = .ok providers) :
    ∀ provider ∈ providers, provider.Readable P := by
  induction entries generalizing providers with
  | nil =>
      cases verified
      simp
  | cons entry rest induction =>
      unfold verifiedProviders at verified
      obtain ⟨obtained, _, verified⟩ := bind_eq_ok.mp verified
      cases obtained with
      | none => exact induction verified
      | some manifest =>
          obtain ⟨found, isFound, verified⟩ := bind_eq_ok.mp verified
          obtain ⟨others, restVerified, verified⟩ := bind_eq_ok.mp verified
          cases verified
          intro provider member
          rcases List.mem_append.mp member with first | later
          · obtain rfl := Option.mem_toList.mp first
            obtain ⟨verified, rfl⟩ := verifiedProvider_some isFound
            exact readable_of_valid sound verified
          · exact induction restVerified provider later

/-- The dict entries of kept providers. -/
def entries (kept : List DiscoveredProvider) : KeptProviders :=
  kept.map fun provider => (provider.pubkey, provider)

theorem lookup_entries (pubkey : Text) :
    (entries kept).lookup pubkey =
      kept.find? fun other => other.pubkey = pubkey := by
  induction kept with
  | nil => rfl
  | cons first rest induction =>
      unfold entries at induction ⊢
      by_cases same : first.pubkey = pubkey
      · simp [same]
      · have different : (pubkey == first.pubkey) = false := by
          simpa using Ne.symm same
        simp [List.lookup_cons, different, induction, same]

theorem set_entries_new
    (found : kept.find? (fun other => other.pubkey = provider.pubkey) = none) :
    (entries kept).set provider.pubkey provider =
      entries (kept ++ [provider]) := by
  have unknown : (entries kept).any (·.1 = provider.pubkey) = false := by
    rw [List.find?_eq_none] at found
    simpa [entries] using found
  unfold KeptProviders.set
  rw [if_neg (by rw [unknown]; exact Bool.false_ne_true)]
  simp [entries]

private theorem set_entries_known {existing : DiscoveredProvider}
    (found : kept.find? (fun other => other.pubkey = provider.pubkey) =
      some existing) :
    (entries kept).set provider.pubkey provider =
      entries (kept.map fun other =>
        if other.pubkey = provider.pubkey then provider else other) := by
  have known : (entries kept).any (·.1 = provider.pubkey) = true := by
    have member := List.mem_of_find?_eq_some found
    have sameKey := List.find?_some found
    simp only [entries, List.any_map, List.any_eq_true]
    exact ⟨existing, member, sameKey⟩
  unfold KeptProviders.set
  rw [if_pos known]
  simp only [entries, List.map_map]
  apply List.map_congr_left
  intro other _
  by_cases same : other.pubkey = provider.pubkey
  · simp [same]
  · simp [same]

theorem keepProvider_wanted (readable : provider.Readable P)
    (keptReadable : ∀ other ∈ kept, other.Readable P) {model : Option Text}
    (wanted : isWanted model provider = .ok true) :
    keepProvider P model (entries kept) provider =
      .ok (entries (keep DiscoveredProvider.pubkey
        DiscoveredProvider.published kept provider)) := by
  unfold keepProvider
  simp only [wanted, readable.pubkey, ok_bind, Bool.not_true,
    Bool.false_eq_true, if_false, lookup_entries]
  cases found : kept.find? fun other => other.pubkey = provider.pubkey with
  | none => simp [keep_new found, set_entries_new found]
  | some existing =>
      have existingReadable :=
        keptReadable existing (List.mem_of_find?_eq_some found)
      rw [keep_known found]
      simp only [readable.published, existingReadable.published, ok_bind,
        set_entries_known found]
      split_ifs
      · rfl
      · rfl

private theorem mem_keep {other : DiscoveredProvider}
    (member : other ∈ keep DiscoveredProvider.pubkey
      DiscoveredProvider.published kept provider) :
    other ∈ kept ∨ other = provider := by
  unfold keep at member
  split at member
  · simpa using member
  · split_ifs at member
    · obtain ⟨earlier, inKept, same⟩ := List.mem_map.mp member
      split_ifs at same
      · exact .inr same.symm
      · exact .inl (same ▸ inKept)
    · exact .inl member

/-- The loop folds the wanted providers. -/
theorem foldlM_keepProvider {model : Option Text} {wanted : DiscoveredProvider → Bool}
    (decides : ∀ provider ∈ providers,
      isWanted model provider = .ok (wanted provider))
    (readable : ∀ provider ∈ providers, provider.Readable P)
    (keptReadable : ∀ provider ∈ kept, provider.Readable P) :
    providers.foldlM (keepProvider P model) (entries kept) =
      .ok (entries ((providers.filter wanted).foldl
        (keep DiscoveredProvider.pubkey DiscoveredProvider.published)
          kept)) := by
  induction providers generalizing kept with
  | nil => rfl
  | cons first rest induction =>
      have firstReadable := readable first List.mem_cons_self
      have restDecides := fun provider member =>
        decides provider (List.mem_cons_of_mem first member)
      have restReadable := fun provider member =>
        readable provider (List.mem_cons_of_mem first member)
      have firstDecides := decides first List.mem_cons_self
      rw [List.foldlM_cons]
      cases isWanted : wanted first with
      | false =>
          have skips : keepProvider P model (entries kept) first =
              .ok (entries kept) := by
            simp [keepProvider, firstDecides, isWanted]
          rw [skips, ok_bind, List.filter_cons_of_neg (by simp [isWanted])]
          exact induction restDecides restReadable keptReadable
      | true =>
          rw [isWanted] at firstDecides
          rw [keepProvider_wanted firstReadable keptReadable firstDecides,
            ok_bind, List.filter_cons_of_pos isWanted, List.foldl_cons]
          apply induction restDecides restReadable
          intro provider member
          rcases mem_keep member with inKept | rfl
          · exact keptReadable provider inKept
          · exact firstReadable

theorem filterAndDedupe_eq {model : Option Text}
    {wanted : DiscoveredProvider → Bool}
    (decides : ∀ provider ∈ providers,
      isWanted model provider = .ok (wanted provider))
    (readable : ∀ provider ∈ providers, provider.Readable P) :
    filterAndDedupe P model providers =
      .ok (freshest DiscoveredProvider.pubkey DiscoveredProvider.published
        (providers.filter wanted)) := by
  have folds := @foldlM_keepProvider P [] providers model wanted decides
    readable (by simp)
  unfold filterAndDedupe
  rw [show ([] : KeptProviders) = entries [] from rfl, folds]
  simp [entries, freshest, Function.comp_def]

/-- `discover(model=m)` gives exactly the providers of `discover()` that serve
the model. -/
def DiscoversServing (P : Platform) (directory : Directory) (model : Text) :
    Prop :=
  ∃ all found, directory.discover P none = .ok all ∧
    directory.discover P (some model) = .ok found ∧
    ∀ provider, provider ∈ found ↔
      provider ∈ all ∧ provider.serves model = .ok true

/-- The freshest manifest of every key lists the model, if any manifest of the
key does. -/
def NotSuperseded (providers : List DiscoveredProvider) (model : Text) :
    Prop :=
  ∀ best, IsFreshest DiscoveredProvider.pubkey DiscoveredProvider.published
      providers best →
    (∃ other ∈ providers, other.pubkey = best.pubkey ∧
      other.lists model = true) → best.lists model = true

/-- **When a model is not routed to superseded manifests.** -/
theorem discover_serving_iff (sound : P.SchemaSound) {directory : Directory}
    (obtained : directory.providers P = .ok providers) :
    DiscoversServing P directory model ↔ NotSuperseded providers model := by
  have readable : ∀ provider ∈ providers, provider.Readable P := by
    obtain ⟨entries, _, verified⟩ := bind_eq_ok.mp obtained
    exact verifiedProviders_readable sound verified
  have all : directory.discover P none =
      .ok (freshest DiscoveredProvider.pubkey DiscoveredProvider.published
        providers) := by
    have deduped := @filterAndDedupe_eq P providers none (fun _ => true)
      (fun _ _ => rfl) readable
    rw [List.filter_true] at deduped
    simp [Directory.discover, obtained, deduped]
  have found : directory.discover P (some model) =
      .ok (freshest DiscoveredProvider.pubkey DiscoveredProvider.published
        (providers.filter (DiscoveredProvider.lists model))) := by
    have deduped := @filterAndDedupe_eq P providers (some model)
      (DiscoveredProvider.lists model)
      (fun provider member => (readable provider member).serves model) readable
    simp [Directory.discover, obtained, deduped]
  unfold DiscoversServing NotSuperseded
  rw [← freshest_filter_iff]
  constructor
  · intro agrees provider
    obtain ⟨all', found', isAll, isFound, same⟩ := agrees
    rw [all, Except.ok.injEq] at isAll
    rw [found, Except.ok.injEq] at isFound
    subst isAll isFound
    rw [same]
    apply and_congr_right
    intro member
    rw [(readable provider (mem_freshest.mp member).mem).serves,
      Except.ok.injEq]
  · intro same
    refine ⟨_, _, all, found, ?_⟩
    intro provider
    rw [same]
    apply and_congr_right
    intro member
    rw [(readable provider (mem_freshest.mp member).mem).serves,
      Except.ok.injEq]

def nodeKey : Text := "ed25519:iojj3XQJ8ZX9UtstPLpdcspnCb8dlBIb83SIAbQPb1w"

def unsignedManifest (model publishedAt : Text) : Dict :=
  [("schema", .str "sip-ai.provider_manifest.v1"),
    ("provider_pubkey", .str nodeKey), ("node_type", .str "sovereign-node"),
    ("models", .arr [.str model]), ("runtime_adapters", .arr [.str "ollama"]),
    ("pricing", .obj [("unit", .str "test")]), ("max_context", .int 4096),
    ("logging_policy", .str "no_prompt_logging"),
    ("privacy_modes", .arr [.str "direct"]),
    ("manifest_uri", .str "https://node.example"),
    ("published_at", .str publishedAt)]

def olderUnsigned : Dict := unsignedManifest "m" "2026-01-01T00:00:00Z"

def newerUnsigned : Dict := unsignedManifest "n" "2026-02-01T00:00:00Z"

def olderSignature : Text :=
  "ed25519:6MMSE-xh0yzNnSvfeQCzSNp1Qjnpba4QS-l0zsQJCNNJy-pzt9a1Y7cZu5LvbeyeTccp4B4Q3WTQZkTfORqPCg"

def newerSignature : Text :=
  "ed25519:GwEt6Jw1MLwkdkPW2risIl9ktM8esu-3gRDdirGBwDuDYSs1HaQIshF8P999kISfIEqaS_eLB4BgOMSXzkFrDw"

def manifestTable : SignatureTable where
  keys := []
  signatures := [(nodeKey, olderUnsigned, olderSignature),
    (nodeKey, newerUnsigned, newerSignature)]

def olderManifest : Dict :=
  olderUnsigned.set "signature" (.str olderSignature)

def newerManifest : Dict :=
  newerUnsigned.set "signature" (.str newerSignature)

def provided (manifest : Dict) : DiscoveredProvider :=
  ⟨"https://node.example", manifest⟩

/-- A relay that lists these manifests. -/
def relayListing (manifests : List Dict) : Directory :=
  .http (.ok (.obj [("providers", .arr (manifests.map .obj))]))

theorem olderManifest_verified :
    verifyProviderManifest manifestTable.platform olderManifest = .ok true := by
  decide +kernel

theorem newerManifest_verified :
    verifyProviderManifest manifestTable.platform newerManifest = .ok true := by
  decide +kernel

theorem relayListing_both :
    (relayListing [olderManifest, newerManifest]).providers
        manifestTable.platform =
      .ok [provided olderManifest, provided newerManifest] := by
  have olderUri : olderManifest.get "manifest_uri" =
      .str "https://node.example" := rfl
  have newerUri : newerManifest.get "manifest_uri" =
      .str "https://node.example" := rfl
  have older :=
    verifiedProvider_ok olderManifest_verified olderUri (by decide)
  have newer :=
    verifiedProvider_ok newerManifest_verified newerUri (by decide)
  have listing : (relayListing [olderManifest, newerManifest]).listing =
      .ok [.ok (some olderManifest), .ok (some newerManifest)] := rfl
  have last : verifiedProviders manifestTable.platform
      [.ok (some newerManifest)] = .ok [provided newerManifest] := by
    unfold verifiedProviders
    simp only [ok_bind]
    rw [newer]
    rfl
  unfold Directory.providers
  rw [listing, ok_bind]
  unfold verifiedProviders
  simp only [ok_bind]
  rw [older, ok_bind, last]
  rfl

/-- The node is listed for the model it serves now. -/
theorem discover_serving_iff_current :
    DiscoversServing manifestTable.platform
      (relayListing [olderManifest, newerManifest]) "n" := by
  refine (discover_serving_iff manifestTable.platform_schemaSound
    relayListing_both).mpr ?_
  intro best fresh _
  rcases List.mem_cons.mp fresh.mem with rfl | isNewer
  · have older := fresh.stamp_le
      (List.mem_cons_of_mem _ List.mem_cons_self) rfl
    exact absurd older (by decide)
  · obtain rfl := List.mem_singleton.mp isNewer
    decide

/-- The node is still listed for the model it stopped serving. -/
theorem superseded_manifest_discovered :
    (relayListing [olderManifest, newerManifest]).providers
        manifestTable.platform =
      .ok [provided olderManifest, provided newerManifest] ∧
    ¬ DiscoversServing manifestTable.platform
      (relayListing [olderManifest, newerManifest]) "m" := by
  refine ⟨relayListing_both, ?_⟩
  have all : filterAndDedupe manifestTable.platform none
      [provided olderManifest, provided newerManifest] =
        .ok [provided newerManifest] := rfl
  have listed : filterAndDedupe manifestTable.platform (some (text "m"))
      [provided olderManifest, provided newerManifest] =
        .ok [provided olderManifest] := rfl
  intro agrees
  obtain ⟨all', found, isAll, isFound, same⟩ := agrees
  unfold Directory.discover at isAll isFound
  rw [relayListing_both, ok_bind, all, Except.ok.injEq] at isAll
  rw [relayListing_both, ok_bind, listed, Except.ok.injEq] at isFound
  subst isAll isFound
  obtain ⟨member, _⟩ := (same _).mp List.mem_cons_self
  have published := congrArg DiscoveredProvider.published
    (List.mem_singleton.mp member)
  exact absurd published (by decide)

end SovereignInference.SipDiscovery
