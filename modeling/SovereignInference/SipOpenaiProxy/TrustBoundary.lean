import SovereignInference.SipOpenaiProxy.Sources

/-!
# What gets into the registry

Whatever the saved config holds and the directories answer, the registry has
one entry for each key and each endpoint, every entry is trusted, and what is
dropped is reported.
-/

namespace SovereignInference.SipOpenaiProxy

open Python Effects SipProtocol SipDiscovery SipRouter Collections

/-- The key that a verified manifest names. -/
def keyOf (entry : ProviderEntry) : Text :=
  (entry.manifest.get "provider_pubkey").asStr.getD []

/-- When a verified manifest was published. -/
def publishedOf (entry : ProviderEntry) : Text :=
  (entry.manifest.get "published_at").asStr.getD []

section

variable (P : Platform) (U : Unicode)

/-- A verified manifest with its signed endpoint, which is a safe one. -/
structure Trusted (entry : ProviderEntry) : Prop where
  verified : verifyProviderManifest P entry.manifest = .ok true
  endpoint : entry.manifest.get "manifest_uri" = .str entry.baseUrl
  nonempty : entry.baseUrl ≠ []
  safe : isSafeRemoteUrl U entry.baseUrl = true

/-- The trust checks let an entry pass. -/
def passes (entry : ProviderEntry) : Bool :=
  match trustedProviderEntry P U entry.manifest (some entry.baseUrl) true with
  | .ok _ => true
  | .error _ => false

/-- What a build goes through, in order: the entries of the sources, and the
warnings for directories that cannot be asked. -/
inductive Source where
  | entry (source : SourceEntry)
  | failed (warning : Text)

def Source.provider : Source → Option ProviderEntry
  | .entry source => some source.entry
  | .failed _ => none

def directorySources (discovered : Discovered) (directory : Text × Nat) :
    List Source :=
  match discovered directory.2 with
  | .ok providers => (providers.map foundSource).map .entry
  | .error message => [.failed (unreachable P directory.1 message)]

def sourcesOf (config : AppConfig) (discovered : Discovered) : List Source :=
  (config.providers.map savedSource).map .entry ++
    config.directories.zipIdx.flatMap (directorySources P discovered)

/-- The entries of the sources that pass the trust checks, in order. -/
def trustedEntries (sources : List Source) : List ProviderEntry :=
  (sources.filterMap Source.provider).filter (passes P U)

def addSource (build : Build) : Source → Except PyExc Build
  | .entry source => tryAdd P U build source
  | .failed warning =>
      .ok { build with warnings := build.warnings ++ [warning] }

/-- A source is in the registry, by its key, or a warning reports it. -/
def Reported (registry : List ProviderEntry) (warnings : List Text) :
    Source → Prop
  | .entry source =>
      (passes P U source.entry = true ∧
        ∃ entry ∈ registry, keyOf entry = keyOf source.entry) ∨
      ∃ message, source.dropped message ∈ warnings
  | .failed warning => warning ∈ warnings

/-- What holds of a registry built with warnings from sources. -/
structure Boundary (sources : List Source) (registry : List ProviderEntry)
    (warnings : List Text) : Prop where
  keys : (registry.map keyOf).Nodup
  endpoints : (registry.map (·.baseUrl)).Nodup
  trusted : ∀ entry ∈ registry, Trusted P U entry
  reported : ∀ source ∈ sources, Reported P U registry warnings source

end

variable {P : Platform} {U : Unicode} {entry new : ProviderEntry}
  {existing : List ProviderEntry} {build next last : Build}
  {source : Source} {sources later : List Source}

theorem trustedProviderEntry_iff :
    trustedProviderEntry P U entry.manifest (some entry.baseUrl) true =
        .ok new ↔ Trusted P U entry ∧ new = entry := by
  obtain ⟨baseUrl, manifest⟩ := entry
  constructor
  · intro isOk
    unfold trustedProviderEntry at isOk
    obtain ⟨valid, isValid, isOk⟩ := bind_eq_ok.mp isOk
    cases verifies : verifyProviderManifest P manifest with
    | error error =>
        rw [verifies] at isValid
        cases isValid
    | ok verified =>
        rw [verifies, mapError_ok, Except.ok.injEq] at isValid
        subst isValid
        cases verified with
        | false => cases isOk
        | true =>
            simp only [Bool.not_true, Bool.false_eq_true, if_false] at isOk
            split at isOk
            · rename_i uri located
              split_ifs at isOk with empty different unsafeUrl
              have same : baseUrl = uri := by simpa using different
              subst same
              cases isOk
              exact ⟨⟨verifies, located, empty, by simpa using unsafeUrl⟩, rfl⟩
            · cases isOk
  · rintro ⟨⟨verified, endpoint, nonempty, safe⟩, rfl⟩
    dsimp only at verified endpoint nonempty safe
    unfold trustedProviderEntry
    simp [verified, endpoint, nonempty, safe]

theorem passes_iff : passes P U entry = true ↔ Trusted P U entry := by
  unfold passes
  constructor
  · intro isOk
    cases checked : trustedProviderEntry P U entry.manifest
        (some entry.baseUrl) true with
    | ok other => exact (trustedProviderEntry_iff.mp checked).1
    | error error =>
        rw [checked] at isOk
        cases isOk
  · intro trusted
    rw [trustedProviderEntry_iff.mpr ⟨trusted, rfl⟩]

/-- The checks raise nothing else unless verification does. -/
theorem trustedProviderEntry_error {verified : Bool} {error : SourceError}
    (verifies : verifyProviderManifest P entry.manifest = .ok verified)
    (fails : trustedProviderEntry P U entry.manifest (some entry.baseUrl)
      true = .error error) :
    ∃ message, error = .untrusted message := by
  unfold trustedProviderEntry at fails
  rw [verifies] at fails
  cases verified with
  | false =>
      cases fails
      exact ⟨_, rfl⟩
  | true =>
      simp only [mapError_ok, ok_bind, Bool.not_true, Bool.false_eq_true,
        if_false] at fails
      split at fails
      · split_ifs at fails
        · cases fails
          exact ⟨_, rfl⟩
        · cases fails
          exact ⟨_, rfl⟩
        · cases fails
          exact ⟨_, rfl⟩
        · cases fails
      · cases fails
        exact ⟨_, rfl⟩

theorem Trusted.readable (sound : P.SchemaSound) (trusted : Trusted P U entry) :
    pubkey P entry = .ok (keyOf entry) := by
  have readable := (@readable_of_valid P sound entry.manifest entry.baseUrl
    trusted.verified).pubkey
  unfold DiscoveredProvider.providerPubkey at readable
  unfold pubkey
  cases found : entry.manifest.find "provider_pubkey" with
  | none =>
      rw [found] at readable
      cases readable
  | some value =>
      rw [found] at readable
      change value.toStr P.isPrintable = _ at readable
      show (value.toStr P.isPrintable).mapError _ = _
      rw [readable]
      rfl

theorem refuseHijack_free {newKey : Text}
    (readable : ∀ entry ∈ existing, pubkey P entry = .ok (keyOf entry))
    (free : ∀ entry ∈ existing, entry.baseUrl = new.baseUrl →
      keyOf entry = newKey) :
    refuseHijack P newKey new existing = .ok () := by
  induction existing with
  | nil => rfl
  | cons first rest induction =>
      have firstReadable := readable first List.mem_cons_self
      have restFree := induction
        (fun entry member => readable entry (List.mem_cons_of_mem _ member))
        (fun entry member => free entry (List.mem_cons_of_mem _ member))
      unfold refuseHijack
      by_cases same : first.baseUrl = new.baseUrl
      · simp [same, firstReadable, free first List.mem_cons_self same, restFree]
      · simp [same, restFree]

theorem refuseHijack_contested {newKey : Text}
    (readable : ∀ entry ∈ existing, pubkey P entry = .ok (keyOf entry))
    (contested : ∃ entry ∈ existing, entry.baseUrl = new.baseUrl ∧
      keyOf entry ≠ newKey) :
    ∃ message, refuseHijack P newKey new existing =
      .error (.untrusted message) := by
  induction existing with
  | nil => simp at contested
  | cons first rest induction =>
      have firstReadable := readable first List.mem_cons_self
      have restReadable := fun entry member =>
        readable entry (List.mem_cons_of_mem _ member)
      unfold refuseHijack
      by_cases taken : first.baseUrl = new.baseUrl ∧ keyOf first ≠ newKey
      · simp [taken.1, firstReadable, taken.2]
      · obtain ⟨entry, member, same, different⟩ := contested
        rcases List.mem_cons.mp member with rfl | inRest
        · exact absurd ⟨same, different⟩ taken
        · obtain ⟨message, refused⟩ :=
            induction restReadable ⟨entry, inRest, same, different⟩
          refine ⟨message, ?_⟩
          by_cases same : first.baseUrl = new.baseUrl
          · have sameKey : keyOf first = newKey := by
              by_contra different
              exact taken ⟨same, different⟩
            simp [same, firstReadable, sameKey, refused]
          · simp [same, refused]

theorem otherKeys_eq {newKey : Text}
    (readable : ∀ entry ∈ existing, pubkey P entry = .ok (keyOf entry)) :
    otherKeys P newKey existing =
      .ok (existing.filter fun entry => keyOf entry ≠ newKey) := by
  induction existing with
  | nil => rfl
  | cons first rest induction =>
      have restKept := induction fun entry member =>
        readable entry (List.mem_cons_of_mem _ member)
      unfold otherKeys
      by_cases same : keyOf first = newKey
      · simp [readable first List.mem_cons_self, restKept, same]
      · simp [readable first List.mem_cons_self, restKept, same]

abbrev pinEntry : List ProviderEntry → ProviderEntry → List ProviderEntry :=
  pin keyOf ProviderEntry.baseUrl

theorem mergeProvider_free
    (readable : ∀ entry ∈ existing, pubkey P entry = .ok (keyOf entry))
    (newReadable : pubkey P new = .ok (keyOf new))
    (free : ¬ Contested keyOf ProviderEntry.baseUrl existing new) :
    mergeProvider P existing new = .ok (pinEntry existing new) := by
  have notHijacked : refuseHijack P (keyOf new) new existing = .ok () := by
    apply refuseHijack_free readable
    intro entry member same
    by_contra different
    exact free ⟨entry, member, same, different⟩
  unfold mergeProvider
  rw [newReadable, ok_bind, notHijacked, ok_bind, otherKeys_eq readable,
    pinEntry, pin_free free]
  rfl

theorem mergeProvider_contested
    (readable : ∀ entry ∈ existing, pubkey P entry = .ok (keyOf entry))
    (newReadable : pubkey P new = .ok (keyOf new))
    (contested : Contested keyOf ProviderEntry.baseUrl existing new) :
    ∃ message, mergeProvider P existing new = .error (.untrusted message) := by
  obtain ⟨message, refused⟩ := refuseHijack_contested readable contested
  refine ⟨message, ?_⟩
  unfold mergeProvider
  rw [newReadable, ok_bind, refused]
  rfl

/-- What a source adds to what is pinned. -/
def Source.pins (P : Platform) (U : Unicode) (source : Source)
    (pinned : List ProviderEntry) : List ProviderEntry :=
  (trustedEntries P U [source]).foldl pinEntry pinned

theorem pins_passing {source : SourceEntry}
    (isPassing : passes P U source.entry = true) :
    Source.pins P U (.entry source) existing =
      pinEntry existing source.entry := by
  simp [Source.pins, trustedEntries, Source.provider, isPassing]

private theorem pins_failing {source : SourceEntry}
    (notPassing : passes P U source.entry = false) :
    Source.pins P U (.entry source) existing = existing := by
  simp [Source.pins, trustedEntries, Source.provider, notPassing]

/-- A step of a build whose entries are trusted: the new entry is pinned, or
reported. -/
theorem addSource_ok (sound : P.SchemaSound)
    (trusted : ∀ entry ∈ build.pinned, Trusted P U entry)
    (added : addSource P U build source = .ok next) :
    next.pinned = source.pins P U build.pinned ∧
      (∃ more, next.warnings = build.warnings ++ more) ∧
      Reported P U next.pinned next.warnings source := by
  have readable := fun entry member => (trusted entry member).readable sound
  cases source with
  | failed warning =>
      cases added
      exact ⟨rfl, ⟨_, rfl⟩, List.mem_append_right _ List.mem_cons_self⟩
  | entry source =>
      change tryAdd P U build source = .ok next at added
      unfold tryAdd at added
      cases checked : trustedProviderEntry P U source.entry.manifest
          (some source.entry.baseUrl) true with
      | error error =>
          have notPassing : passes P U source.entry = false := by
            unfold passes
            rw [checked]
          rw [checked] at added
          cases error with
          | raised error => cases added
          | untrusted message =>
              cases added
              exact ⟨(pins_failing notPassing).symm, ⟨_, rfl⟩,
                .inr ⟨message, List.mem_append_right _ List.mem_cons_self⟩⟩
      | ok new =>
          obtain ⟨newTrusted, rfl⟩ := trustedProviderEntry_iff.mp checked
          have isPassing := passes_iff.mpr newTrusted
          have newReadable := newTrusted.readable sound
          rw [checked] at added
          simp only [ok_bind] at added
          rw [pins_passing isPassing]
          by_cases contested : Contested keyOf ProviderEntry.baseUrl
              build.pinned source.entry
          · obtain ⟨message, refused⟩ :=
              mergeProvider_contested readable newReadable contested
            rw [refused] at added
            cases added
            exact ⟨(pin_contested contested).symm, ⟨_, rfl⟩,
              .inr ⟨message, List.mem_append_right _ List.mem_cons_self⟩⟩
          · rw [mergeProvider_free readable newReadable contested] at added
            cases added
            exact ⟨rfl, ⟨[], (List.append_nil _).symm⟩,
              .inl ⟨isPassing, source.entry, mem_pin_self contested, rfl⟩⟩

/-- A step raises only if verification does. -/
theorem addSource_isOk (sound : P.SchemaSound)
    (trusted : ∀ entry ∈ build.pinned, Trusted P U entry)
    (verifies : ∀ entry, source.provider = some entry →
      ∃ verified, verifyProviderManifest P entry.manifest = .ok verified) :
    ∃ next, addSource P U build source = .ok next := by
  have readable := fun entry member => (trusted entry member).readable sound
  cases source with
  | failed warning => exact ⟨_, rfl⟩
  | entry source =>
      obtain ⟨verified, verifies⟩ := verifies source.entry rfl
      show ∃ next, tryAdd P U build source = .ok next
      unfold tryAdd
      cases checked : trustedProviderEntry P U source.entry.manifest
          (some source.entry.baseUrl) true with
      | error error =>
          obtain ⟨message, rfl⟩ := trustedProviderEntry_error verifies checked
          exact ⟨_, rfl⟩
      | ok new =>
          obtain ⟨newTrusted, rfl⟩ := trustedProviderEntry_iff.mp checked
          have newReadable := newTrusted.readable sound
          simp only [ok_bind]
          by_cases contested : Contested keyOf ProviderEntry.baseUrl
              build.pinned source.entry
          · obtain ⟨message, refused⟩ :=
              mergeProvider_contested readable newReadable contested
            rw [refused]
            exact ⟨_, rfl⟩
          · rw [mergeProvider_free readable newReadable contested]
            exact ⟨_, rfl⟩

theorem pins_trusted (trusted : ∀ entry ∈ existing, Trusted P U entry) :
    ∀ entry ∈ source.pins P U existing, Trusted P U entry := by
  intro entry member
  rcases mem_of_mem_foldl_pin member with inExisting | isNew
  · exact trusted entry inExisting
  · exact passes_iff.mp (List.mem_filter.mp isNew).2

/-- What is reported stays reported. -/
theorem Reported.step {registry : List ProviderEntry} {warnings more : List Text}
    {earlier : Source} (reported : Reported P U registry warnings earlier) :
    Reported P U (source.pins P U registry) (warnings ++ more) earlier := by
  cases earlier with
  | failed warning => exact List.mem_append_left _ reported
  | entry earlier =>
      rcases reported with ⟨isPassing, entry, member, sameKey⟩ |
        ⟨message, member⟩
      · obtain ⟨kept, inNext, keptKey⟩ := @key_mem_foldl_pin _ _ _ keyOf
          ProviderEntry.baseUrl _ _ _ (trustedEntries P U [source]) _ member
        exact .inl ⟨isPassing, kept, inNext, keptKey.trans sameKey⟩
      · exact .inr ⟨message, List.mem_append_left _ member⟩

theorem trustedEntries_concat :
    trustedEntries P U (sources ++ [source]) =
      trustedEntries P U sources ++ trustedEntries P U [source] := by
  simp [trustedEntries]

theorem foldlM_singleton :
    [source].foldlM (addSource P U) build = addSource P U build source := by
  rw [List.foldlM_cons]
  cases addSource P U build source <;> rfl

/-- A build pins the trusted entries in order and reports every source. -/
theorem foldlM_addSource_ok (sound : P.SchemaSound)
    (built : sources.foldlM (addSource P U) ⟨[], []⟩ = .ok last) :
    last.pinned =
        pinAll keyOf ProviderEntry.baseUrl (trustedEntries P U sources) ∧
      (∀ entry ∈ last.pinned, Trusted P U entry) ∧
      ∀ source ∈ sources, Reported P U last.pinned last.warnings source := by
  induction sources using List.reverseRecOn generalizing last with
  | nil =>
      cases built
      exact ⟨rfl, by simp, by simp⟩
  | append_singleton past final induction =>
      rw [List.foldlM_append] at built
      obtain ⟨middle, first, added⟩ := bind_eq_ok.mp built
      rw [foldlM_singleton] at added
      obtain ⟨pinned, trusted, reported⟩ := induction first
      obtain ⟨nextPinned, ⟨more, moreWarnings⟩, nextReported⟩ :=
        addSource_ok sound trusted added
      refine ⟨?_, ?_, ?_⟩
      · rw [nextPinned, pinned, trustedEntries_concat]
        exact List.foldl_append.symm
      · rw [nextPinned]
        exact pins_trusted trusted
      · intro source member
        rcases List.mem_append.mp member with inPast | isFinal
        · rw [nextPinned, moreWarnings]
          exact (reported source inPast).step
        · rw [List.mem_singleton.mp isFinal]
          exact nextReported

/-- A build raises only if verification does. -/
theorem foldlM_addSource_isOk (sound : P.SchemaSound)
    (verifies : ∀ entry ∈ sources.filterMap Source.provider,
      ∃ verified, verifyProviderManifest P entry.manifest = .ok verified) :
    ∃ last, sources.foldlM (addSource P U) ⟨[], []⟩ = .ok last := by
  induction sources using List.reverseRecOn with
  | nil => exact ⟨_, rfl⟩
  | append_singleton past final induction =>
      rw [List.filterMap_append] at verifies
      obtain ⟨middle, first⟩ := induction fun entry member =>
        verifies entry (List.mem_append_left _ member)
      obtain ⟨_, trusted, _⟩ := foldlM_addSource_ok sound first
      have finalVerifies : ∀ entry, final.provider = some entry →
          ∃ verified, verifyProviderManifest P entry.manifest =
            .ok verified := by
        intro entry isProvider
        apply verifies
        apply List.mem_append_right
        simp [isProvider]
      obtain ⟨last, added⟩ := addSource_isOk sound trusted finalVerifies
      refine ⟨last, ?_⟩
      rw [List.foldlM_append, first, ok_bind, foldlM_singleton, added]

theorem foldlM_tryAdd (entries : List SourceEntry) :
    entries.foldlM (tryAdd P U) build =
      (entries.map Source.entry).foldlM (addSource P U) build := by
  rw [List.foldlM_map]
  rfl

private theorem addDirectory_eq {discovered : Discovered}
    (directory : Text × Nat) :
    addDirectory P U discovered build directory =
      (directorySources P discovered directory).foldlM (addSource P U)
        build := by
  unfold addDirectory directorySources
  cases discovered directory.2 with
  | ok providers => exact foldlM_tryAdd _
  | error message => rfl

private theorem foldlM_addDirectory {discovered : Discovered}
    (directories : List (Text × Nat)) :
    directories.foldlM (addDirectory P U discovered) build =
      (directories.flatMap (directorySources P discovered)).foldlM
        (addSource P U) build := by
  induction directories generalizing build with
  | nil => rfl
  | cons first rest induction =>
      rw [List.foldlM_cons, List.flatMap_cons, List.foldlM_append,
        addDirectory_eq]
      congr 1
      funext next
      exact induction

/-- A registry is built from its sources in order. -/
theorem buildRegistry_eq (config : AppConfig) (discovered : Discovered) :
    buildRegistry P U config discovered =
      (sourcesOf P config discovered).foldlM (addSource P U) ⟨[], []⟩ >>=
        fun build => .ok (build.pinned, build.warnings) := by
  unfold buildRegistry sourcesOf
  rw [List.foldlM_append, foldlM_tryAdd]
  simp only [foldlM_addDirectory, bind_assoc]
  rfl

variable {config : AppConfig} {discovered : Discovered}
  {registry : List ProviderEntry} {warnings : List Text}

/-- The registry pins the trusted entries of the sources in order. -/
theorem registry_eq (sound : P.SchemaSound)
    (built : buildRegistry P U config discovered = .ok (registry, warnings)) :
    registry = pinAll keyOf ProviderEntry.baseUrl
      (trustedEntries P U (sourcesOf P config discovered)) := by
  rw [buildRegistry_eq] at built
  obtain ⟨last, folded, same⟩ := bind_eq_ok.mp built
  cases same
  exact (foldlM_addSource_ok sound folded).1

/-- **The trust boundary**: whatever is configured and discovered, only
trusted entries get in, one for each key and each endpoint, and every source
that is not represented is reported. -/
theorem build_registry_boundary (sound : P.SchemaSound)
    (verifies : ∀ entry ∈
        (sourcesOf P config discovered).filterMap Source.provider,
      ∃ verified, verifyProviderManifest P entry.manifest = .ok verified) :
    ∃ registry warnings,
      buildRegistry P U config discovered = .ok (registry, warnings) ∧
        Boundary P U (sourcesOf P config discovered) registry warnings := by
  obtain ⟨last, folded⟩ := foldlM_addSource_isOk (U := U) sound verifies
  obtain ⟨pinned, trusted, reported⟩ := foldlM_addSource_ok sound folded
  have nodup := @pinAll_nodup _ _ _ keyOf ProviderEntry.baseUrl _ _
    (trustedEntries P U (sourcesOf P config discovered))
  refine ⟨last.pinned, last.warnings, ?_, ?_, ?_, trusted, reported⟩
  · rw [buildRegistry_eq, folded, ok_bind]
  · rw [pinned]
    exact nodup.1
  · rw [pinned]
    exact nodup.2

/-- Nothing outside ASCII is touched. -/
def asciiTables : Unicode := ⟨id, asciiLower⟩

/-- The newer manifest is saved, with two directories. -/
def savedNewer : AppConfig :=
  { AppConfig.default with
    providers := [⟨"https://node.example", newerManifest⟩]
    directories := ["directory.json", "https://directory.example"] }

/-- One directory lists the older manifest, the other cannot be asked. -/
def listsOlder : Discovered
  | 0 => .ok [provided olderManifest]
  | _ => .error "connection refused"

theorem savedNewer_sources :
    (sourcesOf manifestTable.platform savedNewer listsOlder).filterMap
        Source.provider =
      [⟨"https://node.example", newerManifest⟩,
        ⟨"https://node.example", olderManifest⟩] := rfl

theorem savedNewer_verifies :
    ∀ entry ∈ (sourcesOf manifestTable.platform savedNewer
      listsOlder).filterMap Source.provider, ∃ verified,
        verifyProviderManifest manifestTable.platform entry.manifest =
          .ok verified := by
  rw [savedNewer_sources]
  intro entry member
  simp only [List.mem_cons, List.not_mem_nil, or_false] at member
  rcases member with rfl | rfl
  · exact ⟨true, newerManifest_verified⟩
  · exact ⟨true, olderManifest_verified⟩

theorem build_registry_boundary_older :
    ∃ registry warnings,
      buildRegistry manifestTable.platform asciiTables savedNewer listsOlder =
          .ok (registry, warnings) ∧
        Boundary manifestTable.platform asciiTables
          (sourcesOf manifestTable.platform savedNewer listsOlder) registry
          warnings :=
  build_registry_boundary manifestTable.platform_schemaSound
    savedNewer_verifies

/-- Every saved provider that passes the trust checks is in the registry, as
it was saved or as published later. -/
def NotRolledBack (P : Platform) (U : Unicode) (config : AppConfig)
    (registry : List ProviderEntry) : Prop :=
  ∀ saved ∈ config.providers, passes P U saved = true →
    ∃ entry ∈ registry, keyOf entry = keyOf saved ∧
      publishedOf saved ≤ publishedOf entry

/-- **A saved provider is rolled back exactly when the last trusted entry of
its key that is not refused is an older one.** -/
theorem not_rolled_back_iff (sound : P.SchemaSound)
    (built : buildRegistry P U config discovered = .ok (registry, warnings)) :
    NotRolledBack P U config registry ↔
      ∀ saved ∈ config.providers, passes P U saved = true →
        ∃ last, IsPinned keyOf ProviderEntry.baseUrl
            (trustedEntries P U (sourcesOf P config discovered)) last ∧
          keyOf last = keyOf saved ∧ publishedOf saved ≤ publishedOf last := by
  unfold NotRolledBack
  rw [registry_eq sound built]
  simp only [mem_pinAll]

theorem savedNewer_built :
    ∃ registry warnings, buildRegistry manifestTable.platform asciiTables
      savedNewer listsOlder = .ok (registry, warnings) := by
  obtain ⟨last, folded⟩ := foldlM_addSource_isOk (U := asciiTables)
    manifestTable.platform_schemaSound savedNewer_verifies
  refine ⟨last.pinned, last.warnings, ?_⟩
  rw [buildRegistry_eq, folded, ok_bind]

theorem not_rolled_back_iff_older :
    ∃ registry warnings,
      buildRegistry manifestTable.platform asciiTables savedNewer listsOlder =
          .ok (registry, warnings) ∧
        (NotRolledBack manifestTable.platform asciiTables savedNewer registry ↔
          ∀ saved ∈ savedNewer.providers,
            passes manifestTable.platform asciiTables saved = true →
              ∃ last, IsPinned keyOf ProviderEntry.baseUrl
                  (trustedEntries manifestTable.platform asciiTables
                    (sourcesOf manifestTable.platform savedNewer listsOlder))
                  last ∧
                keyOf last = keyOf saved ∧
                publishedOf saved ≤ publishedOf last) := by
  obtain ⟨registry, warnings, built⟩ := savedNewer_built
  exact ⟨registry, warnings, built,
    not_rolled_back_iff manifestTable.platform_schemaSound built⟩

theorem node_trusted {manifest : Dict}
    (verified : verifyProviderManifest manifestTable.platform manifest =
      .ok true)
    (endpoint : manifest.get "manifest_uri" = .str "https://node.example") :
    Trusted manifestTable.platform asciiTables
      ⟨"https://node.example", manifest⟩ := by
  have safe : isSafeRemoteUrl asciiTables "https://node.example" = true := by
    decide +kernel
  exact ⟨verified, endpoint, List.cons_ne_nil _ _, safe⟩

theorem newer_passes :
    passes manifestTable.platform asciiTables
      ⟨"https://node.example", newerManifest⟩ = true :=
  passes_iff.mpr (node_trusted newerManifest_verified rfl)

private theorem older_passes :
    passes manifestTable.platform asciiTables
      ⟨"https://node.example", olderManifest⟩ = true :=
  passes_iff.mpr (node_trusted olderManifest_verified rfl)

/-- A directory that lists the older manifest rolls the saved one back. -/
theorem older_manifest_rolls_back :
    ∃ registry warnings,
      buildRegistry manifestTable.platform asciiTables savedNewer listsOlder =
          .ok (registry, warnings) ∧
        ¬ NotRolledBack manifestTable.platform asciiTables savedNewer
          registry := by
  obtain ⟨registry, warnings, built⟩ := savedNewer_built
  have trusted : trustedEntries manifestTable.platform asciiTables
      (sourcesOf manifestTable.platform savedNewer listsOlder) =
        [⟨"https://node.example", newerManifest⟩,
          ⟨"https://node.example", olderManifest⟩] := by
    unfold trustedEntries
    rw [savedNewer_sources, List.filter_cons_of_pos newer_passes,
      List.filter_cons_of_pos older_passes, List.filter_nil]
  refine ⟨registry, warnings, built, ?_⟩
  rw [registry_eq manifestTable.platform_schemaSound built, trusted]
  intro notRolledBack
  obtain ⟨entry, member, _, notOlder⟩ :=
    notRolledBack _ List.mem_cons_self newer_passes
  have replaced : pinAll keyOf ProviderEntry.baseUrl
      [⟨"https://node.example", newerManifest⟩,
        ⟨"https://node.example", olderManifest⟩] =
          [⟨"https://node.example", olderManifest⟩] := rfl
  rw [replaced, List.mem_singleton] at member
  subst member
  exact absurd notOlder (by decide +kernel)

end SovereignInference.SipOpenaiProxy
