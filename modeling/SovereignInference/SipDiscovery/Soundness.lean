import SovereignInference.SipDiscovery.FileDirectory

/-!
# What discovery returns

Whatever a file, a relay or a set of anchored objects holds, discovery returns
one provider for each key that has a verified manifest with an endpoint for
the model: a freshest one, at the endpoint that its manifest signs.  It raises
if obtaining or verifying an entry does.
-/

namespace SovereignInference.SipDiscovery

open Python Effects SipProtocol Collections

/-- A file with what reading it gives, or another directory. -/
inductive AnyDirectory where
  | file (stored : StoredFile)
  | remote (directory : Directory)

namespace AnyDirectory

/-- What the loop of `discover` goes over. -/
def listing : AnyDirectory → Except PyExc (List Entry)
  | .file stored => do return (← fileManifests stored).map .ok
  | .remote directory => directory.listing

/-- The entries, if each of them can be obtained; what is not a dict is
`none`. -/
def manifests (directory : AnyDirectory) :
    Except PyExc (List (Option Dict)) := do
  (← directory.listing).mapM id

variable (P : Platform)

def discover (directory : AnyDirectory) (model : Option Text) :
    Except PyExc (List DiscoveredProvider) :=
  match directory with
  | .file stored => do
      let providers ← verifiedProviders P (← (file stored).listing)
      filterAndDedupe P model providers
  | .remote directory => directory.discover P model

end AnyDirectory

section

variable (P : Platform)

/-- Verification raises on no manifest. -/
def Verifies (manifests : List (Option Dict)) : Prop :=
  ∀ manifest, some manifest ∈ manifests →
    ∃ verified, verifyProviderManifest P manifest = .ok verified

/-- A listed manifest that verifies, says where to reach the provider, and
serves the model if one is asked for. -/
structure Eligible (manifests : List (Option Dict)) (model : Option Text)
    (provider : DiscoveredProvider) : Prop where
  listed : some provider.manifest ∈ manifests
  verified : verifyProviderManifest P provider.manifest = .ok true
  endpoint : provider.manifest.get "manifest_uri" = .str provider.baseUrl
  nonempty : provider.baseUrl ≠ []
  serves : ∀ wanted, model = some wanted → provider.lists wanted = true

/-- One freshest eligible provider for each key that has an eligible one. -/
structure SoundDiscovery (manifests : List (Option Dict))
    (model : Option Text) (found : List DiscoveredProvider) : Prop where
  eligible : ∀ provider ∈ found, Eligible P manifests model provider
  unique : (found.map DiscoveredProvider.pubkey).Nodup
  freshest : ∀ provider ∈ found, ∀ other, Eligible P manifests model other →
    other.pubkey = provider.pubkey → other.published ≤ provider.published
  represented : ∀ other, Eligible P manifests model other →
    ∃ provider ∈ found, provider.pubkey = other.pubkey

end

variable {P : Platform} {manifests : List (Option Dict)}
  {model : Option Text} {provider : DiscoveredProvider}
  {providers : List DiscoveredProvider}

theorem discover_eq (directory : AnyDirectory) (model : Option Text) :
    directory.discover P model =
      directory.listing >>= fun entries =>
        verifiedProviders P entries >>= filterAndDedupe P model := by
  cases directory with
  | file stored => rfl
  | remote directory =>
      show (directory.listing >>= verifiedProviders P) >>=
          filterAndDedupe P model =
        directory.listing >>= fun entries =>
          verifiedProviders P entries >>= filterAndDedupe P model
      cases directory.listing <;> rfl

theorem manifests_eq_ok {directory : AnyDirectory} :
    directory.manifests = .ok manifests ↔
      directory.listing = .ok (manifests.map .ok) := by
  unfold AnyDirectory.manifests
  rw [bind_eq_ok]
  constructor
  · rintro ⟨entries, lists, obtained⟩
    have same : entries = manifests.map .ok := by
      have pairs := mapM_forall₂ obtained
      rw [List.forall₂_iff_get] at pairs
      refine List.ext_get (by rw [pairs.1, List.length_map]) ?_
      intro i inEntries inManifests
      rw [List.length_map] at inManifests
      simpa using pairs.2 i inEntries inManifests
    rw [lists, same]
  · intro lists
    refine ⟨_, lists, ?_⟩
    rw [List.mapM_map]
    exact (mapM_eq_map (g := id) fun _ _ => rfl).trans (by rw [List.map_id])

theorem verifiedProvider_isOk {manifest : Dict} {verified : Bool}
    (verifies : verifyProviderManifest P manifest = .ok verified) :
    ∃ found, verifiedProvider P manifest = .ok found := by
  unfold verifiedProvider
  rw [verifies, ok_bind]
  cases verified with
  | false => exact ⟨none, rfl⟩
  | true =>
      simp only [Bool.not_true, Bool.false_eq_true, if_false]
      split <;> exact ⟨_, rfl⟩

theorem verifiedProvider_iff {manifest : Dict} :
    verifiedProvider P manifest = .ok (some provider) ↔
      provider.manifest = manifest ∧
        verifyProviderManifest P manifest = .ok true ∧
        manifest.get "manifest_uri" = .str provider.baseUrl ∧
        provider.baseUrl ≠ [] := by
  constructor
  · intro found
    obtain ⟨verified, same⟩ := verifiedProvider_some found
    refine ⟨same, verified, ?_⟩
    unfold verifiedProvider at found
    rw [verified, ok_bind] at found
    simp only [Bool.not_true, Bool.false_eq_true, if_false] at found
    split at found
    · rename_i uri located
      split_ifs at found with empty
      · cases found
      · cases found
        exact ⟨located, empty⟩
    · cases found
  · rintro ⟨rfl, verified, located, nonempty⟩
    exact verifiedProvider_ok verified located nonempty

private theorem verifies_of_verifiedProvider {manifest : Dict}
    {found : Option DiscoveredProvider}
    (isFound : verifiedProvider P manifest = .ok found) :
    ∃ verified, verifyProviderManifest P manifest = .ok verified := by
  unfold verifiedProvider at isFound
  obtain ⟨verified, isVerified, _⟩ := bind_eq_ok.mp isFound
  exact ⟨verified, isVerified⟩

/-- A loop that returns has obtained every entry, and verified every
manifest. -/
theorem verifiedProviders_returned {entries : List Entry}
    (verified : verifiedProviders P entries = .ok providers) :
    ∃ manifests : List (Option Dict), entries = manifests.map .ok ∧
      Verifies P manifests := by
  induction entries generalizing providers with
  | nil => exact ⟨[], rfl, fun _ member => absurd member List.not_mem_nil⟩
  | cons entry rest induction =>
      unfold verifiedProviders at verified
      obtain ⟨obtained, isObtained, verified⟩ := bind_eq_ok.mp verified
      cases obtained with
      | none =>
          obtain ⟨manifests, rfl, verifies⟩ := induction verified
          refine ⟨none :: manifests, by rw [isObtained]; rfl, ?_⟩
          intro manifest member
          rcases List.mem_cons.mp member with isFirst | later
          · cases isFirst
          · exact verifies manifest later
      | some first =>
          obtain ⟨found, isFound, verified⟩ := bind_eq_ok.mp verified
          obtain ⟨others, restVerified, _⟩ := bind_eq_ok.mp verified
          obtain ⟨manifests, rfl, verifies⟩ := induction restVerified
          refine ⟨some first :: manifests, by rw [isObtained]; rfl, ?_⟩
          intro manifest member
          rcases List.mem_cons.mp member with isFirst | later
          · cases isFirst
            exact verifies_of_verifiedProvider isFound
          · exact verifies manifest later

/-- Verification that raises nowhere finds what each manifest yields. -/
theorem verifiedProviders_isOk (verifies : Verifies P manifests) :
    ∃ providers, verifiedProviders P (manifests.map .ok) = .ok providers ∧
      ∀ provider, provider ∈ providers ↔
        some provider.manifest ∈ manifests ∧
          verifiedProvider P provider.manifest = .ok (some provider) := by
  induction manifests with
  | nil => exact ⟨[], rfl, by simp⟩
  | cons first rest induction =>
      obtain ⟨providers, isOk, members⟩ := induction fun manifest member =>
        verifies manifest (List.mem_cons_of_mem _ member)
      cases first with
      | none => exact ⟨providers, isOk, by simpa using members⟩
      | some manifest =>
          obtain ⟨_, verified⟩ := verifies manifest List.mem_cons_self
          obtain ⟨found, isFound⟩ := verifiedProvider_isOk verified
          refine ⟨found.toList ++ providers, ?_, ?_⟩
          · simp [verifiedProviders, isFound, isOk]
          · intro provider
            rw [List.mem_append, members, Option.mem_toList, List.mem_cons,
              Option.some.injEq]
            constructor
            · rintro (rfl | ⟨member, isOne⟩)
              · rw [(verifiedProvider_some isFound).2]
                exact ⟨.inl rfl, isFound⟩
              · exact ⟨.inr member, isOne⟩
            · rintro ⟨rfl | member, isOne⟩
              · rw [isFound, Except.ok.injEq] at isOne
                exact .inl isOne
              · exact .inr ⟨member, isOne⟩

/-- The filter of the loop, on readable providers. -/
def wantedBy (model : Option Text) (provider : DiscoveredProvider) : Bool :=
  model.all fun wanted => provider.lists wanted

theorem isWanted_wantedBy (readable : provider.Readable P) :
    isWanted model provider = .ok (wantedBy model provider) := by
  cases model with
  | none => rfl
  | some wanted => exact readable.serves wanted

private theorem wantedBy_iff :
    wantedBy model provider = true ↔
      ∀ wanted, model = some wanted → provider.lists wanted = true := by
  cases model <;> simp [wantedBy]

/-- What is discovered where verification raises nowhere. -/
theorem discover_verifying (sound : P.SchemaSound) {directory : AnyDirectory}
    (lists : directory.manifests = .ok manifests)
    (verifies : Verifies P manifests) :
    ∃ providers, (∀ provider, provider ∈ providers ↔
        Eligible P manifests model provider) ∧
      directory.discover P model = .ok (freshest DiscoveredProvider.pubkey
        DiscoveredProvider.published providers) := by
  obtain ⟨providers, isOk, members⟩ := verifiedProviders_isOk verifies
  have readable := verifiedProviders_readable sound isOk
  have deduped := @filterAndDedupe_eq P providers model (wantedBy model)
    (fun provider member => isWanted_wantedBy (readable provider member))
    readable
  refine ⟨providers.filter (wantedBy model), ?_, ?_⟩
  · intro provider
    rw [List.mem_filter, members, verifiedProvider_iff, wantedBy_iff]
    constructor
    · rintro ⟨⟨listed, _, verified, endpoint, nonempty⟩, serves⟩
      exact ⟨listed, verified, endpoint, nonempty, serves⟩
    · intro eligible
      exact ⟨⟨eligible.listed, rfl, eligible.verified, eligible.endpoint,
        eligible.nonempty⟩, eligible.serves⟩
  · rw [discover_eq, manifests_eq_ok.mp lists, ok_bind, isOk, ok_bind, deduped]

/-- Discovery finds its providers where every entry is obtained and
verification raises nowhere. -/
theorem discover_sound (sound : P.SchemaSound) {directory : AnyDirectory}
    (lists : directory.manifests = .ok manifests)
    (verifies : Verifies P manifests) :
    ∃ found, directory.discover P model = .ok found ∧
      SoundDiscovery P manifests model found := by
  obtain ⟨providers, eligible, discovers⟩ :=
    @discover_verifying P manifests model sound directory lists verifies
  refine ⟨_, discovers, ?_, freshest_keys_nodup _, ?_, ?_⟩
  · intro provider member
    exact (eligible provider).mp (mem_freshest.mp member).mem
  · intro provider member other isEligible sameKey
    exact (mem_freshest.mp member).stamp_le
      ((eligible other).mpr isEligible) sameKey
  · intro other isEligible
    obtain ⟨best, fresh, sameKey⟩ := exists_freshest
      DiscoveredProvider.pubkey DiscoveredProvider.published
      ((eligible other).mpr isEligible)
    exact ⟨best, mem_freshest.mpr fresh, sameKey⟩

/-- Discovery that returns has obtained and verified all that is listed. -/
theorem discover_returned {directory : AnyDirectory}
    {found : List DiscoveredProvider}
    (discovers : directory.discover P model = .ok found) :
    ∃ manifests, directory.manifests = .ok manifests ∧
      Verifies P manifests := by
  rw [discover_eq] at discovers
  obtain ⟨entries, lists, discovers⟩ := bind_eq_ok.mp discovers
  obtain ⟨providers, verified, _⟩ := bind_eq_ok.mp discovers
  obtain ⟨manifests, rfl, verifies⟩ := verifiedProviders_returned verified
  exact ⟨manifests, manifests_eq_ok.mpr lists, verifies⟩

/-- **Discovery is sound and complete.**  It returns exactly if every entry is
obtained and verification raises on none, and what it returns is then the
providers of these entries. -/
theorem discovery_sound (sound : P.SchemaSound) (directory : AnyDirectory)
    (model : Option Text) :
    (∀ found, directory.discover P model = .ok found →
      ∃ manifests, directory.manifests = .ok manifests ∧
        Verifies P manifests ∧ SoundDiscovery P manifests model found) ∧
    (∀ manifests, directory.manifests = .ok manifests →
      Verifies P manifests →
        ∃ found, directory.discover P model = .ok found) ∧
    ∀ error, directory.listing = .error error →
      directory.discover P model = .error error := by
  refine ⟨?_, ?_, ?_⟩
  · intro found discovers
    obtain ⟨manifests, lists, verifies⟩ := discover_returned discovers
    obtain ⟨found', discovers', discovery⟩ :=
      @discover_sound P manifests model sound directory lists verifies
    rw [discovers] at discovers'
    cases discovers'
    exact ⟨manifests, lists, verifies, discovery⟩
  · intro manifests lists verifies
    obtain ⟨found, discovers, _⟩ :=
      @discover_sound P manifests model sound directory lists verifies
    exact ⟨found, discovers⟩
  · intro error fails
    rw [discover_eq, fails]
    rfl

/-- A file with a newer and an older manifest of one key under two names. -/
def sharedFile : StoredFile :=
  .ok (some (.obj [("a", .obj [("manifest", .obj olderManifest),
      ("base_url", .str "https://elsewhere.example")]),
    ("b", .obj [("manifest", .obj newerManifest)]), ("c", .null)]))

theorem discovery_sound_shared :
    ∃ found, (AnyDirectory.file sharedFile).discover manifestTable.platform
        none = .ok found ∧
      SoundDiscovery manifestTable.platform
        [some olderManifest, some newerManifest, none] none found := by
  obtain ⟨sound, returns, _⟩ := discovery_sound
    manifestTable.platform_schemaSound (.file sharedFile) none
  have lists : (AnyDirectory.file sharedFile).manifests =
      .ok [some olderManifest, some newerManifest, none] := rfl
  have verifies : Verifies manifestTable.platform
      [some olderManifest, some newerManifest, none] := by
    intro manifest member
    simp only [List.mem_cons, Option.some.injEq, List.not_mem_nil, or_false,
      reduceCtorEq] at member
    rcases member with rfl | rfl
    · exact ⟨true, olderManifest_verified⟩
    · exact ⟨true, newerManifest_verified⟩
  obtain ⟨found, discovers⟩ := returns _ lists verifies
  obtain ⟨manifests, lists', _, discovery⟩ := sound found discovers
  rw [lists] at lists'
  cases lists'
  exact ⟨found, discovers, discovery⟩

end SovereignInference.SipDiscovery
