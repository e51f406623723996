import SovereignInference.SipOpenaiProxy.Server
import SovereignInference.SipOpenaiProxy.TrustBoundary

/-!
# When mutating requests are atomic

A route puts its change in memory before it saves it.  A request that fails to
save leaves everything as it was exactly when it asks for no change.  As long
as no other request fails to save, and what is saved comes back from the file,
the config file, the configuration and the backend agree after every request.
-/

namespace SovereignInference.SipOpenaiProxy

open Python Effects SipProtocol SipDiscovery SipRouter

variable {P : Platform} {U : Unicode}

/-- Verification of the manifest returns. -/
def Checkable (P : Platform) (manifest : Dict) : Prop :=
  ∃ verified, verifyProviderManifest P manifest = .ok verified

/-- The manifests that directories list can be checked. -/
def ListsCheckable (P : Platform) (discovered : Discovered) : Prop :=
  ∀ index providers, discovered index = .ok providers →
    ∀ provider ∈ providers, Checkable P provider.manifest

private theorem tryAdd_checkable {build next : Build} {source : SourceEntry}
    (adds : tryAdd P U build source = .ok next) :
    Checkable P source.entry.manifest := by
  unfold tryAdd trustedProviderEntry at adds
  cases verifies : verifyProviderManifest P source.entry.manifest with
  | ok verified => exact ⟨verified, verifies⟩
  | error error =>
      rw [verifies] at adds
      cases adds

private theorem foldlM_tryAdd_checkable {sources : List SourceEntry}
    {build next : Build}
    (adds : sources.foldlM (tryAdd P U) build = .ok next) :
    ∀ source ∈ sources, Checkable P source.entry.manifest := by
  induction sources generalizing build with
  | nil => simp
  | cons source rest induction =>
      rw [List.foldlM_cons] at adds
      obtain ⟨middle, first, later⟩ := bind_eq_ok.mp adds
      intro other member
      rcases List.mem_cons.mp member with rfl | inRest
      · exact tryAdd_checkable first
      · exact induction later other inRest

/-- A registry is built only if the saved manifests can be checked. -/
theorem buildRegistry_checkable {config : AppConfig} {discovered : Discovered}
    {built : List ProviderEntry × List Text}
    (builds : buildRegistry P U config discovered = .ok built) :
    ∀ entry ∈ config.providers, Checkable P entry.manifest := by
  unfold buildRegistry at builds
  obtain ⟨build, adds, _⟩ := bind_eq_ok.mp builds
  intro entry member
  exact foldlM_tryAdd_checkable adds (savedSource entry)
    (List.mem_map_of_mem member)

/-- A registry can be built if every manifest can be checked. -/
theorem buildRegistry_isOk (sound : P.SchemaSound) {config : AppConfig}
    {discovered : Discovered}
    (saved : ∀ entry ∈ config.providers, Checkable P entry.manifest)
    (lists : ListsCheckable P discovered) :
    ∃ built, buildRegistry P U config discovered = .ok built := by
  have checkable : ∀ entry ∈ (sourcesOf P config discovered).filterMap
      Source.provider, Checkable P entry.manifest := by
    intro entry member
    obtain ⟨source, isSource, isProvider⟩ := List.mem_filterMap.mp member
    rcases List.mem_append.mp isSource with fromSaved | fromListed
    · obtain ⟨_, inSaved, rfl⟩ := List.mem_map.mp fromSaved
      obtain ⟨other, isEntry, rfl⟩ := List.mem_map.mp inSaved
      cases isProvider
      exact saved other isEntry
    · obtain ⟨directory, _, inDirectory⟩ := List.mem_flatMap.mp fromListed
      unfold directorySources at inDirectory
      cases answers : discovered directory.2 with
      | error message =>
          rw [answers] at inDirectory
          obtain rfl := List.mem_singleton.mp inDirectory
          cases isProvider
      | ok providers =>
          rw [answers] at inDirectory
          obtain ⟨_, found, rfl⟩ := List.mem_map.mp inDirectory
          obtain ⟨provider, isListed, rfl⟩ := List.mem_map.mp found
          cases isProvider
          exact lists directory.2 providers answers provider isListed
  obtain ⟨last, folded⟩ := foldlM_addSource_isOk (U := U) sound checkable
  exact ⟨(last.pinned, last.warnings), by rw [buildRegistry_eq, folded]; rfl⟩

/-- The backend was built from the configuration and the local provider. -/
def BuiltFrom (P : Platform) (U : Unicode) (s : ServerState) : Prop :=
  ∃ discovered registry warnings,
    buildRegistry P U s.config discovered = .ok (registry, warnings) ∧
      s.backend = buildBackend
        (registry ++ (s.localProvider.map (·.entry)).toList) s.config.token

section

variable (P : Platform) (U : Unicode) (levels depth : Nat)
  (adminToken : Option Text)

/-- The config file reads as the configuration, and the backend was built from
it. -/
structure Consistent (s : ServerState) : Prop where
  file : ∃ loaded, loadConfig P.isPrintable depth s.file = .ok loaded ∧
    loaded.Same s.config
  backend : BuiltFrom P U s

/-- The state after a request. -/
def after (event : Event) (s : ServerState) : ServerState :=
  (respond P U levels adminToken event s).2

/-- If the request fails because its save raises, then everything is as it
was. -/
def Atomic (event : Event) (s : ServerState) : Prop :=
  ∀ error,
    (respond P U levels adminToken event s).1 = .error (.unsaved error) →
      (after P U levels adminToken event s).config = s.config ∧
      (after P U levels adminToken event s).localProvider = s.localProvider ∧
      (after P U levels adminToken event s).backend = s.backend ∧
      (after P U levels adminToken event s).file = s.file

/-- The configuration can be written, and replacing the file does not raise. -/
def Saved (answers : Answers) (config : AppConfig) : Prop :=
  answers.saveRaises = none ∧ config.Writable levels

/-- What the request asks for comes back from the file if it is saved, and is
what is there already if it is not. -/
def Kept (event : Event) (s : ServerState) : Prop :=
  authorized adminToken event.presented = true → ∀ wanted,
    s.wanted P U event.answers event.request = .ok (some wanted) →
      (Saved levels event.answers wanted.config →
        wanted.config.ComesBack depth) ∧
      (¬ Saved levels event.answers wanted.config →
        wanted = ⟨s.config, s.localProvider⟩)

/-- Every request of a run is atomic and leaves a consistent state. -/
def AtomicRun : ServerState → List Event → Prop
  | _, [] => True
  | s, event :: rest =>
      Atomic P U levels adminToken event s ∧
        Consistent P U depth (after P U levels adminToken event s) ∧
        AtomicRun (after P U levels adminToken event s) rest

/-- What is asked for is kept in every request of a run. -/
def KeptRun : ServerState → List Event → Prop
  | _, [] => True
  | s, event :: rest =>
      Kept P U levels depth adminToken event s ∧
        KeptRun (after P U levels adminToken event s) rest

end

section

variable {levels depth : Nat} {adminToken : Option Text} {event : Event}
  {s : ServerState}

private theorem refused_ne_unsaved (sourceError : SourceError) (error : PyExc) :
    refused sourceError ≠ .unsaved error := by
  cases sourceError <;> simp [refused]

private theorem mapError_refused {α : Type} {outcome : Except SourceError α}
    {failure : Failure} (fails : outcome.mapError refused = .error failure)
    (error : PyExc) : failure ≠ .unsaved error := by
  cases outcome with
  | ok value => cases fails
  | error sourceError =>
      cases fails
      exact refused_ne_unsaved sourceError error

/-- Working out what is wanted saves nothing. -/
theorem wanted_error {request : Request} {answers : Answers}
    {failure : Failure}
    (fails : s.wanted P U answers request = .error failure) (error : PyExc) :
    failure ≠ .unsaved error := by
  cases request with
  | completeOnboarding => cases fails
  | removeProvider publicKey => cases fails
  | removeDirectory spec => cases fails
  | stopLocalUse => cases fails
  | addDirectory spec =>
      simp only [ServerState.wanted, ServerState.addDirectory] at fails
      split_ifs at fails
      cases fails
      simp
  | startLocalUse runtime model =>
      cases starts : answers.startLocal with
      | ok localProvider =>
          simp [ServerState.wanted, ServerState.startLocalUse, starts] at fails
      | error message =>
          simp only [ServerState.wanted, ServerState.startLocalUse, starts]
            at fails
          cases fails
          simp
  | addProvider manifest baseUrl _ =>
      simp only [ServerState.wanted, ServerState.addProvider] at fails
      cases trusts : (trustedProviderEntry P U manifest baseUrl true).mapError
          refused with
      | error other =>
          rw [trusts] at fails
          cases fails
          exact mapError_refused trusts error
      | ok entry =>
          rw [trusts, ok_bind] at fails
          cases merges : (mergeProvider P s.config.providers entry).mapError
              refused with
          | error other =>
              rw [merges] at fails
              cases fails
              exact mapError_refused merges error
          | ok merged =>
              rw [merges] at fails
              cases fails

theorem snapshot_ne_unsaved (error : PyExc) :
    (snapshot s).mapError Failure.raised ≠ .error (.unsaved error) := by
  cases snapshot s <;> simp

/-- A request either leaves everything as it is or commits what it wants. -/
theorem respond_cases :
    ((respond P U levels adminToken event s).2 = s ∧
      (∀ error, (respond P U levels adminToken event s).1 ≠
        .error (.unsaved error)) ∧
      (authorized adminToken event.presented = true → ∀ wanted,
        s.wanted P U event.answers event.request ≠ .ok (some wanted))) ∨
      ∃ wanted, authorized adminToken event.presented = true ∧
        s.wanted P U event.answers event.request = .ok (some wanted) ∧
        respond P U levels adminToken event s =
          commit P U levels event.answers s wanted := by
  unfold respond
  cases allowed : authorized adminToken event.presented with
  | false =>
      left
      exact ⟨rfl, by simp, nofun⟩
  | true =>
      simp only [Bool.not_true, Bool.false_eq_true, if_false]
      cases wants : s.wanted P U event.answers event.request with
      | error failure =>
          left
          refine ⟨rfl, ?_, nofun⟩
          intro error same
          exact wanted_error wants error (Except.error.inj same)
      | ok change =>
          cases change with
          | none => exact Or.inl ⟨rfl, snapshot_ne_unsaved, nofun⟩
          | some wanted => exact Or.inr ⟨wanted, trivial, rfl, rfl⟩

theorem rebuild_ok {discovered : Discovered} {next : ServerState}
    (rebuilds : rebuild P U discovered s = .ok next) :
    next.config = s.config ∧ next.file = s.file ∧ BuiltFrom P U next := by
  obtain ⟨⟨registry, warnings⟩, builds, rebuilds⟩ := bind_eq_ok.mp rebuilds
  cases rebuilds
  exact ⟨rfl, rfl, discovered, registry, warnings, builds, rfl⟩

theorem respond_wanted {wanted : Wanted}
    (allowed : authorized adminToken event.presented = true)
    (wants : s.wanted P U event.answers event.request = .ok (some wanted)) :
    respond P U levels adminToken event s =
      commit P U levels event.answers s wanted := by
  unfold respond
  rw [allowed, wants]
  rfl

theorem commit_unsaved {answers : Answers} {wanted : Wanted}
    (unsaved : ¬ Saved levels answers wanted.config) :
    ∃ error, commit P U levels answers s wanted =
      (.error (.unsaved error), s.put wanted) := by
  unfold commit
  dsimp only
  cases saves : saveConfig levels (s.put wanted).config answers.saveRaises with
  | error error => exact ⟨error, rfl⟩
  | ok bytes =>
      obtain ⟨writable, none, _⟩ := saveConfig_eq_ok.mp saves
      exact absurd ⟨none, writable⟩ unsaved

/-- What is wanted is written to the file, and the backend is built of it. -/
theorem commit_saved {answers : Answers} {wanted : Wanted}
    (saved : Saved levels answers wanted.config) :
    (∀ error, (commit P U levels answers s wanted).1 ≠
      .error (.unsaved error)) ∧
    ∃ bytes, saveConfig levels wanted.config none = .ok bytes ∧
      (commit P U levels answers s wanted).2.file = some bytes := by
  obtain ⟨bytes, saves⟩ := saveConfig_isOk saved.2
  have saves' : saveConfig levels (s.put wanted).config answers.saveRaises =
      .ok bytes := by
    rw [saved.1]
    exact saves
  unfold commit
  dsimp only
  rw [saves']
  dsimp only
  cases rebuilds : rebuild P U answers.discovered
      { s.put wanted with file := some bytes } with
  | error other => exact ⟨by simp, bytes, saves, rfl⟩
  | ok next => exact ⟨snapshot_ne_unsaved, bytes, saves, (rebuild_ok rebuilds).2.1⟩

/-- Whether it is saved or not, what is wanted is in place. -/
theorem commit_config {answers : Answers} {wanted : Wanted} :
    (commit P U levels answers s wanted).2.config = wanted.config := by
  unfold commit
  dsimp only
  cases saveConfig levels (s.put wanted).config answers.saveRaises with
  | error error => rfl
  | ok bytes =>
      dsimp only
      cases rebuilds : rebuild P U answers.discovered
          { s.put wanted with file := some bytes } with
      | error other => rfl
      | ok next => exact (rebuild_ok rebuilds).1

/-- The saved manifests can be checked, and no dict has a key twice. -/
structure Admissible (P : Platform) (config : AppConfig) : Prop where
  checkable : ∀ entry ∈ config.providers, Checkable P entry.manifest
  distinct : config.Distinct

theorem trusted_manifest {manifest : Dict} {baseUrl : Option Text}
    {entry : ProviderEntry}
    (trusts : trustedProviderEntry P U manifest baseUrl true = .ok entry) :
    Checkable P manifest ∧ entry.manifest = manifest := by
  unfold trustedProviderEntry at trusts
  obtain ⟨verified, verifies, trusts⟩ := bind_eq_ok.mp trusts
  have checkable : Checkable P manifest := by
    cases returns : verifyProviderManifest P manifest with
    | ok verified => exact ⟨verified, returns⟩
    | error error =>
        rw [returns] at verifies
        cases verifies
  split_ifs at trusts
  · cases trusts
  · split at trusts
    · split_ifs at trusts
      cases trusts
      exact ⟨checkable, rfl⟩
    · cases trusts

private theorem otherKeys_subset {newKey : Text}
    {existing kept : List ProviderEntry}
    (keeps : otherKeys P newKey existing = .ok kept) : kept ⊆ existing := by
  induction existing generalizing kept with
  | nil =>
      cases keeps
      exact List.Subset.refl _
  | cons entry rest induction =>
      obtain ⟨key, _, keeps⟩ := bind_eq_ok.mp keeps
      obtain ⟨others, tail, keeps⟩ := bind_eq_ok.mp keeps
      have fromRest := List.subset_cons_of_subset entry (induction tail)
      cases keeps
      split_ifs
      · exact List.cons_subset_cons entry (induction tail)
      · exact fromRest

theorem mergeProvider_mem {existing merged : List ProviderEntry}
    {new : ProviderEntry} (merges : mergeProvider P existing new = .ok merged) :
    ∀ entry ∈ merged, entry ∈ existing ∨ entry = new := by
  obtain ⟨newKey, _, merges⟩ := bind_eq_ok.mp merges
  obtain ⟨_, _, merges⟩ := bind_eq_ok.mp merges
  obtain ⟨kept, keeps, merges⟩ := bind_eq_ok.mp merges
  cases merges
  intro entry member
  rcases List.mem_append.mp member with inKept | isNew
  · exact Or.inl (otherKeys_subset keeps inKept)
  · exact Or.inr (List.mem_singleton.mp isNew)

private theorem mapError_eq_ok {α ε δ : Type} {f : ε → δ} {outcome : Except ε α}
    {value : α} (isOk : outcome.mapError f = .ok value) :
    outcome = .ok value := by
  cases outcome with
  | ok other =>
      cases isOk
      rfl
  | error error => cases isOk

/-- Whatever a request wants is admissible. -/
theorem wanted_admissible {request : Request} {answers : Answers}
    {wanted : Wanted} (admissible : Admissible P s.config)
    (wants : s.wanted P U answers request = .ok (some wanted)) :
    Admissible P wanted.config := by
  have same : ∀ config : AppConfig, config.providers = s.config.providers →
      config.apiKey = s.config.apiKey → config.token = s.config.token →
        Admissible P config := by
    intro config providers apiKey token
    obtain ⟨checkable, manifests, isKey, isToken⟩ := admissible
    exact ⟨by rwa [providers],
      by rwa [providers], by rwa [apiKey], by rwa [token]⟩
  cases request with
  | completeOnboarding =>
      cases wants
      exact same _ rfl rfl rfl
  | removeProvider publicKey =>
      cases wants
      obtain ⟨checkable, manifests, isKey, isToken⟩ := admissible
      exact ⟨fun entry member => checkable entry (List.mem_of_mem_filter member),
        fun entry member => manifests entry (List.mem_of_mem_filter member),
        isKey, isToken⟩
  | removeDirectory spec =>
      simp only [ServerState.wanted, ServerState.removeDirectory] at wants
      split_ifs at wants
      · cases wants
        exact same _ rfl rfl rfl
      · cases wants
  | stopLocalUse =>
      cases wants
      exact same _ rfl rfl rfl
  | addDirectory spec =>
      simp only [ServerState.wanted, ServerState.addDirectory] at wants
      split_ifs at wants
      · cases wants
      · cases wants
        exact same _ rfl rfl rfl
  | startLocalUse runtime model =>
      cases starts : answers.startLocal with
      | ok localProvider =>
          simp only [ServerState.wanted, ServerState.startLocalUse, starts]
            at wants
          cases wants
          exact same _ rfl rfl rfl
      | error message =>
          simp only [ServerState.wanted, ServerState.startLocalUse, starts]
            at wants
          cases wants
  | addProvider manifest baseUrl distinct =>
      obtain ⟨change, adds, wants⟩ : ∃ change,
          s.addProvider P U manifest baseUrl = .ok change ∧
            change = wanted := by
        unfold ServerState.wanted at wants
        dsimp only at wants
        cases adds : s.addProvider P U manifest baseUrl with
        | error failure =>
            rw [adds] at wants
            cases wants
        | ok change =>
            rw [adds] at wants
            cases wants
            exact ⟨wanted, rfl, rfl⟩
      subst wants
      obtain ⟨new, trusts, adds⟩ := bind_eq_ok.mp adds
      obtain ⟨merged, merges, adds⟩ := bind_eq_ok.mp adds
      cases adds
      obtain ⟨newCheckable, isManifest⟩ :=
        trusted_manifest (mapError_eq_ok trusts)
      obtain ⟨checkable, manifests, isKey, isToken⟩ := admissible
      have entries := mergeProvider_mem (mapError_eq_ok merges)
      refine ⟨?_, ?_, isKey, isToken⟩
      · intro entry member
        rcases entries entry member with inSaved | rfl
        · exact checkable entry inSaved
        · rwa [isManifest]
      · intro entry member
        rcases entries entry member with inSaved | rfl
        · exact manifests entry inSaved
        · rwa [isManifest]

private theorem rebuild_isOk (sound : P.SchemaSound) {discovered : Discovered}
    (admissible : Admissible P s.config)
    (lists : ListsCheckable P discovered) :
    ∃ next, rebuild P U discovered s = .ok next := by
  obtain ⟨built, builds⟩ :=
    buildRegistry_isOk (U := U) sound admissible.checkable lists
  unfold rebuild
  rw [builds]
  exact ⟨_, rfl⟩

/-- A change that is saved leaves a state with a backend built from it. -/
theorem commit_built (sound : P.SchemaSound) {answers : Answers}
    {wanted : Wanted} (saved : Saved levels answers wanted.config)
    (admissible : Admissible P wanted.config)
    (lists : ListsCheckable P answers.discovered) :
    BuiltFrom P U (commit P U levels answers s wanted).2 := by
  obtain ⟨bytes, saves⟩ := saveConfig_isOk saved.2
  have saves' : saveConfig levels (s.put wanted).config answers.saveRaises =
      .ok bytes := by
    rw [saved.1]
    exact saves
  obtain ⟨next, rebuilds⟩ := @rebuild_isOk P U
    { s.put wanted with file := some bytes } sound answers.discovered
    admissible lists
  unfold commit
  dsimp only
  rw [saves']
  dsimp only
  rw [rebuilds]
  exact (rebuild_ok rebuilds).2.2

/-- The file agrees with a saved change exactly if the change comes back. -/
theorem commit_file_iff {answers : Answers} {wanted : Wanted}
    (saved : Saved levels answers wanted.config)
    (distinct : wanted.config.Distinct) :
    (∃ loaded, loadConfig P.isPrintable depth
        (commit P U levels answers s wanted).2.file = .ok loaded ∧
      loaded.Same (commit P U levels answers s wanted).2.config) ↔
        wanted.config.ComesBack depth := by
  obtain ⟨_, bytes, saves, isFile⟩ := @commit_saved P U levels s _ _ saved
  rw [isFile, commit_config, loadConfig_saved saves]
  constructor
  · rintro ⟨loaded, loads, same⟩
    split_ifs at loads with shallow
    cases loads
    exact ⟨shallow, (restored_same_iff distinct).mp same⟩
  · intro comesBack
    rw [if_pos comesBack.shallow]
    exact ⟨_, rfl, (restored_same_iff distinct).mpr comesBack.unpaired⟩

theorem after_admissible (admissible : Admissible P s.config) :
    Admissible P (after P U levels adminToken event s).config := by
  unfold after
  rcases @respond_cases P U levels adminToken event s with ⟨same, _, _⟩ |
    ⟨wanted, _, wants, commits⟩
  · rwa [same]
  · rw [commits, commit_config]
    exact wanted_admissible admissible wants

/-- **A request is atomic and leaves a consistent state** exactly if what it
asks for is kept. -/
theorem atomic_iff_kept (sound : P.SchemaSound)
    (consistent : Consistent P U depth s)
    (admissible : Admissible P s.config)
    (lists : ListsCheckable P event.answers.discovered) :
    Atomic P U levels adminToken event s ∧
        Consistent P U depth (after P U levels adminToken event s) ↔
      Kept P U levels depth adminToken event s := by
  unfold Atomic after Kept
  rcases @respond_cases P U levels adminToken event s with
    ⟨same, notUnsaved, nothing⟩ | ⟨wanted, allowed, wants, commits⟩
  · rw [same]
    refine iff_of_true ⟨?_, consistent⟩ ?_
    · exact fun error unsaved => absurd unsaved (notUnsaved error)
    · exact fun allowed wanted wants => absurd wants (nothing allowed wanted)
  · have wantedAdmissible := wanted_admissible admissible wants
    rw [commits]
    constructor
    · rintro ⟨atomic, nextConsistent⟩ _ wanted' wants'
      rw [wants] at wants'
      cases wants'
      refine ⟨fun saved => ?_, fun unsaved => ?_⟩
      · exact (commit_file_iff saved wantedAdmissible.distinct).mp
          nextConsistent.file
      · obtain ⟨error, fails⟩ := @commit_unsaved P U levels s _ _ unsaved
        obtain ⟨sameConfig, sameLocal, _⟩ := atomic error (by rw [fails])
        rw [fails] at sameConfig sameLocal
        obtain ⟨config, localProvider⟩ := wanted
        exact Wanted.mk.injEq _ _ _ _ ▸ ⟨sameConfig, sameLocal⟩
    · intro kept
      obtain ⟨comesBack, unchanged⟩ := kept allowed wanted wants
      by_cases saved : Saved levels event.answers wanted.config
      · refine ⟨fun error unsaved => ?_, ?_, ?_⟩
        · exact absurd unsaved ((commit_saved saved).1 error)
        · exact (commit_file_iff saved wantedAdmissible.distinct).mpr
            (comesBack saved)
        · exact commit_built sound saved wantedAdmissible lists
      · obtain ⟨error, fails⟩ := @commit_unsaved P U levels s _ _ saved
        rw [fails, unchanged saved]
        exact ⟨fun _ _ => ⟨rfl, rfl, rfl, rfl⟩, consistent⟩

end

section

variable {levels depth : Nat} {adminToken : Option Text} {s : ServerState}

theorem boot_consistent {file : ConfigFile} {answers : Answers}
    (boots : boot P U depth file answers = .ok s) :
    Consistent P U depth s ∧ Admissible P s.config := by
  obtain ⟨config, loads, rebuilds⟩ := bind_eq_ok.mp boots
  obtain ⟨⟨registry, warnings⟩, builds, same⟩ := bind_eq_ok.mp rebuilds
  obtain ⟨sameConfig, sameFile, built⟩ := rebuild_ok rebuilds
  refine ⟨⟨⟨config, ?_, ?_⟩, built⟩, ?_, ?_⟩
  · rw [sameFile]
    exact loads
  · rw [sameConfig]
    rfl
  · rw [sameConfig]
    exact buildRegistry_checkable builds
  · rw [sameConfig]
    exact loadConfig_distinct loads

private theorem atomicRun_iff (sound : P.SchemaSound) {events : List Event}
    (consistent : Consistent P U depth s)
    (admissible : Admissible P s.config)
    (lists : ∀ event ∈ events, ListsCheckable P event.answers.discovered) :
    AtomicRun P U levels depth adminToken s events ↔
      KeptRun P U levels depth adminToken s events := by
  induction events generalizing s with
  | nil => exact Iff.rfl
  | cons event rest induction =>
      obtain ⟨first, later⟩ := List.forall_mem_cons.mp lists
      have step := @atomic_iff_kept P U levels depth adminToken event s sound
        consistent admissible first
      unfold AtomicRun KeptRun
      rw [← and_assoc, step]
      refine and_congr_right fun kept => ?_
      exact induction (step.mpr kept).2 (after_admissible admissible) later

/-- **From its start on, the server changes atomically, and its configuration
comes back from the file**, exactly as long as what every request asks for is
kept. -/
theorem booted_atomic_iff (sound : P.SchemaSound) {file : ConfigFile}
    {answers : Answers} {events : List Event}
    (boots : boot P U depth file answers = .ok s)
    (lists : ∀ event ∈ events, ListsCheckable P event.answers.discovered) :
    AtomicRun P U levels depth adminToken s events ↔
      KeptRun P U levels depth adminToken s events := by
  obtain ⟨consistent, admissible⟩ := boot_consistent boots
  exact atomicRun_iff sound consistent admissible lists

end

/-- No directory can be reached, and no local model can be started. -/
def offline (saveRaises : Option PyExc) : Answers :=
  ⟨saveRaises, fun _ => .error "connection refused", .error "no runtime"⟩

def completing (saveRaises : Option PyExc) : Event :=
  ⟨none, .completeOnboarding, offline saveRaises⟩

def freshState : ServerState :=
  ⟨.default, none, none, [], buildBackend [] .null, none⟩

theorem freshState_boots :
    boot manifestTable.platform asciiTables 2 none (offline none) =
      .ok freshState := rfl

theorem respond_completing (saveRaises : Option PyExc) (s : ServerState) :
    respond manifestTable.platform asciiTables 2 none (completing saveRaises)
        s =
      commit manifestTable.platform asciiTables 2 (offline saveRaises) s
        s.completeOnboarding :=
  respond_wanted rfl rfl

theorem onboarded_writable :
    freshState.completeOnboarding.config.Writable 2 where
  short := ⟨Nat.one_lt_pow (by decide) (by decide), trivial, trivial, trivial,
    trivial, trivial, trivial, trivial⟩
  shallow := by decide

/-- Nothing is asked for once onboarding is completed. -/
theorem completing_kept {s : ServerState} {error : PyExc}
    (completed : s.config.onboardingComplete = true) :
    Kept manifestTable.platform asciiTables 2 2 none (completing (some error))
      s := by
  rintro _ wanted ⟨⟩
  refine ⟨fun saved => absurd saved.1 (Option.some_ne_none error), fun _ => ?_⟩
  unfold ServerState.completeOnboarding
  rw [← completed]

private theorem offline_lists (saveRaises : Option PyExc) :
    ListsCheckable manifestTable.platform (offline saveRaises).discovered := by
  intro index providers lists
  cases lists

/-- Onboarding is completed, and then once more while the disk is full. -/
theorem booted_atomic_iff_twice :
    AtomicRun manifestTable.platform asciiTables 2 2 none freshState
      [completing none, completing (some .osError)] := by
  refine (booted_atomic_iff manifestTable.platform_schemaSound freshState_boots
    ?_).mpr ⟨?_, ?_, trivial⟩
  · intro event member
    rcases List.mem_pair.mp member with rfl | rfl
    · exact offline_lists none
    · exact offline_lists (some .osError)
  · rintro _ wanted ⟨⟩
    refine ⟨fun _ => ⟨by decide, by decide⟩, fun unsaved => ?_⟩
    exact absurd ⟨rfl, onboarded_writable⟩ unsaved
  · apply completing_kept
    unfold after
    rw [respond_completing, commit_config]
    rfl

private theorem respond_full_disk :
    respond manifestTable.platform asciiTables 2 none
        (completing (some .osError)) freshState =
      (.error (.unsaved .osError),
        freshState.put freshState.completeOnboarding) := by
  have raised := saveConfig_raised onboarded_writable .osError
  rw [respond_completing]
  unfold commit
  dsimp only [ServerState.put, offline]
  rw [raised]

/-- Onboarding is completed while the disk is full: the request fails, the
server takes it as completed, and the file does not. -/
theorem failed_save_changes_config :
    boot manifestTable.platform asciiTables 2 none (offline none) =
        .ok freshState ∧
      (respond manifestTable.platform asciiTables 2 none
        (completing (some .osError)) freshState).1 =
          .error (.unsaved .osError) ∧
      (after manifestTable.platform asciiTables 2 none
        (completing (some .osError)) freshState).config.onboardingComplete =
          true ∧
      loadConfig manifestTable.platform.isPrintable 2
        (after manifestTable.platform asciiTables 2 none
          (completing (some .osError)) freshState).file = .ok .default ∧
      ¬ AtomicRun manifestTable.platform asciiTables 2 2 none freshState
        [completing (some .osError)] := by
  unfold AtomicRun Atomic after
  rw [respond_full_disk]
  refine ⟨freshState_boots, rfl, rfl, rfl, ?_⟩
  rintro ⟨atomic, _⟩
  obtain ⟨sameConfig, _⟩ := atomic .osError rfl
  cases congrArg AppConfig.onboardingComplete sameConfig

end SovereignInference.SipOpenaiProxy
