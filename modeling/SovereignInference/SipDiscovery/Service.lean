import SovereignInference.Python.Http
import SovereignInference.Python.JsonFile
import SovereignInference.SipDiscovery.Soundness
import SovereignInference.SipProtocol.Reordering

/-!
# The hosted directory

The service keeps announced manifests in a JSON file and lists them over HTTP.
A client that checks what is listed finds, for each provider key, the manifest
that was announced last, unless a manifest was announced that is nested too
deeply to be read from the file again.
-/

namespace SovereignInference.SipDiscovery

open Python Python.Json Python.Http Effects SipProtocol Collections

/-- The bytes of the file, if there is one. -/
abbrev FileBytes := Option Bytes

/-- `_load_raw`: what is read of the file. -/
def storedFile (depth : Nat) : FileBytes → StoredFile
  | none => .ok none
  | some bytes =>
      match readText bytes with
      | none => .error .valueError
      | some written =>
          match loads depth written with
          | .ok value => .ok (some value)
          | .error .decodeError => .ok none
          | .error .valueError => .error .valueError
          | .error .recursionError => .error .recursionError

section

variable (P : Platform) (codecs : Codecs) (depth levels : Nat)

/-- The key of a manifest, and the file with it. -/
def announcement (file : FileBytes) (manifest : Dict) :
    Except AnnounceError (Text × Bytes) := do
  let (pubkey, entries) ←
    announcedEntries P (storedFile depth file) manifest none
  let written ← (dumpIndented levels 0 (.obj entries)).mapError .raised
  let bytes ← (encodeUtf8 written).mapError .raised
  return (pubkey, bytes)

/-- `announce`, where the last argument is what replacing the file gives. -/
def announceFile (file : FileBytes) (manifest : Dict)
    (replaced : Except PyExc Unit) : Except AnnounceError Text × FileBytes :=
  match announcement P depth levels file manifest, replaced with
  | .ok (pubkey, bytes), .ok () => (.ok pubkey, some bytes)
  | .ok _, .error error => (.error (.raised error), file)
  | .error error, _ => (.error error, file)

/-- `POST /directory/announce` -/
def postAnnounce (file : FileBytes) (body : Bytes)
    (replaced : Except PyExc Unit) : Response × FileBytes :=
  let (answer, file) := announceHandler
    (fun manifest => announceFile P depth levels file manifest replaced) file
    (bodyJson codecs depth body)
  (served do
    let (status, content) ← answer
    jsonResponse status (.obj content), file)

/-- `GET /directory/providers` -/
def getProviders (file : FileBytes) (model : Option Text) : Response :=
  served do
    let found ← (AnyDirectory.file (storedFile depth file)).discover P model
    jsonResponse 200 (.obj [("providers",
      .arr (found.map fun provider => .obj provider.manifest))])

/-- `raise_for_status` and `json`, where an `httpx.HTTPError` or a
`ValueError` becomes a `DiscoveryError`. -/
def received (response : Response) : Except PyExc Json :=
  if 200 ≤ response.status ∧ response.status < 300 then
    (bodyJson codecs depth response.body).mapError fun error =>
      if error.isValueError then .discoveryError else error
  else .error .discoveryError

/-- `discover` of a service that can be reached. -/
def httpDiscover (service : Option Text → Response) (model : Option Text) :
    Except PyExc (List DiscoveredProvider) :=
  let asked := model.filter (· ≠ [])
  (Directory.http (if ∀ wanted ∈ asked, Encodable wanted then
    received codecs depth (service asked)
  else .error .discoveryError)).discover P model

/-- A request to announce, and what replacing the file gives if it gets
there. -/
structure AnnouncePost where
  body : Bytes
  replaced : Except PyExc Unit

/-- The file after the requests. -/
def announceAll (file : FileBytes) (posts : List AnnouncePost) : FileBytes :=
  posts.foldl (fun file post =>
    (postAnnounce P codecs depth levels file post.body post.replaced).2) file

/-- The manifest of a request that is accepted, under its key. -/
def AnnouncePost.accepted (post : AnnouncePost) : Option (Text × Dict) :=
  match post.replaced, bodyJson codecs depth post.body with
  | .ok (), .ok (.obj manifest) =>
      match announcedKey P manifest none with
      | .ok pubkey =>
          if nesting (.obj manifest) + 2 ≤ levels then some (pubkey, manifest)
          else none
      | .error _ => none
  | _, _ => none

/-- The manifest of each provider key, unless the file cannot be read. -/
abbrev Listing := Option (Text → Option Dict)

def Listing.after (listing : Listing) (post : AnnouncePost) : Listing :=
  listing.bind fun held =>
    match post.accepted P codecs depth levels with
    | none => some held
    | some (pubkey, manifest) =>
        if nesting (.obj manifest) + 2 ≤ depth then
          some (Function.update held pubkey (some manifest))
        else none

/-- What is listed after the requests. -/
def listing (posts : List AnnouncePost) : Listing :=
  posts.foldl (Listing.after P codecs depth levels) (some fun _ => none)

end

variable {P : Platform} {codecs : Codecs} {depth levels : Nat}
  {file : FileBytes} {manifest : Dict} {pubkey : Text}
  {provider : DiscoveredProvider} {held : Text → Option Dict}
  {model : Option Text}

theorem announcedKey_ok (sound : P.SchemaSound) {baseUrl : Option Text}
    (announced : announcedKey P manifest baseUrl = .ok pubkey) :
    verifyProviderManifest P manifest = .ok true ∧
      manifest.get "provider_pubkey" = .str pubkey ∧
      ∃ uri, manifest.get "manifest_uri" = .str uri ∧ uri ≠ [] := by
  unfold announcedKey at announced
  obtain ⟨_, verified, announced⟩ := bind_eq_ok.mp announced
  obtain ⟨uri, located, announced⟩ := bind_eq_ok.mp announced
  have verifies : verifyProviderManifest P manifest = .ok true := by
    unfold requireVerified at verified
    cases verdict : verifyProviderManifest P manifest with
    | error error =>
        rw [verdict] at verified
        cases verified
    | ok verdict' =>
        cases verdict' with
        | true => rfl
        | false =>
            rw [verdict] at verified
            cases verified
  have endpoint : manifest.get "manifest_uri" = .str uri ∧ uri ≠ [] := by
    unfold signedEndpoint at located
    split at located
    · rename_i uri' isUri
      split_ifs at located with empty
      cases located
      exact ⟨isUri, empty⟩
    · cases located
  refine ⟨verifies, ?_, uri, endpoint⟩
  have readable := (@readable_of_valid P sound manifest uri verifies).pubkey
  rw [readable] at announced
  cases announced
  obtain ⟨publicKey, _, _, isKey, _⟩ := verifyDocument_true
    (((Verifier.providerManifest).accepts_iff).mp verifies).2
  rw [DiscoveredProvider.pubkey]
  dsimp only
  change manifest.get "provider_pubkey" = _ at isKey
  rw [isKey]
  rfl

/-- A manifest that may be announced, without repeated keys. -/
structure Announced (P : Platform) (pubkey : Text) (manifest : Dict) :
    Prop where
  key : announcedKey P manifest none = .ok pubkey
  distinct : (Json.obj manifest).DistinctKeys

namespace Announced

theorem same (announced : Announced P pubkey manifest) :
    SameMembers (.obj manifest) (.obj manifest.sorted) := by
  rw [← Dict.sorted_obj]
  exact sameMembers_sorted announced.distinct

theorem distinct_sorted (announced : Announced P pubkey manifest) :
    (Json.obj manifest.sorted).DistinctKeys := by
  rw [← Dict.sorted_obj]
  exact announced.distinct.sorted

variable (sound : P.SchemaSound)
  (announced : Announced P pubkey manifest)

include sound announced

theorem clean : Encodable pubkey ∧ (Json.obj manifest).Clean := by
  obtain ⟨verified, named, _⟩ := announcedKey_ok sound announced.key
  have document := (((Verifier.providerManifest).accepts_iff).mp verified).2
  refine ⟨?_, verifyDocument_clean announced.distinct document⟩
  obtain ⟨publicKey, _, _, isKey, _, _, accepted⟩ :=
    verifyDocument_true document
  change manifest.get "provider_pubkey" = _ at isKey
  rw [named] at isKey
  cases isKey
  unfold verify at accepted
  split at accepted
  · rename_i decoded _
    exact decodePrefixed_encodable decoded
  · cases accepted

theorem clean_sorted : (Json.obj manifest.sorted).Clean :=
  announced.same.clean announced.distinct_sorted (announced.clean sound).2

/-- What is read of the file verifies as what was announced. -/
theorem verified_sorted :
    verifyProviderManifest P manifest.sorted = .ok true :=
  Verifier.accepts_reordered sound .providerManifest announced.distinct
    announced.distinct_sorted announced.same
    (announcedKey_ok sound announced.key).1

theorem key_sorted :
    manifest.sorted.get "provider_pubkey" = .str pubkey :=
  get_sameMembers announced.same (announcedKey_ok sound announced.key).2.1

theorem endpoint_sorted : ∃ uri,
    manifest.sorted.get "manifest_uri" = .str uri ∧ uri ≠ [] := by
  obtain ⟨_, _, uri, located, nonempty⟩ := announcedKey_ok sound announced.key
  exact ⟨uri, get_sameMembers announced.same located, nonempty⟩

end Announced

/-- An entry of the file. -/
def fileEntry (manifest : Dict) : Json := .obj [("manifest", .obj manifest)]

/-- The file is read as these manifests. -/
structure Holds (P : Platform) (depth levels : Nat) (file : FileBytes)
    (held : Text → Option Dict) : Prop where
  announced : ∀ pubkey manifest, held pubkey = some manifest →
    Announced P pubkey manifest ∧ nesting (.obj manifest) + 2 ≤ levels ∧
      nesting (.obj manifest) + 2 ≤ depth
  stored : ∃ entries, loadRaw (storedFile depth file) = .ok entries ∧
    (entries.map (·.1)).Nodup ∧ ∀ pubkey, entries.find pubkey =
      (held pubkey).map fun manifest => fileEntry manifest.sorted

def Represents (P : Platform) (depth levels : Nat) (file : FileBytes) :
    Listing → Prop
  | some held => Holds P depth levels file held
  | none => ∃ error, storedFile depth file = .error error

/-- A property of every field of a dict. -/
theorem forall_field_iff {fields : Dict} (nodup : (fields.map (·.1)).Nodup)
    {Q : Text × Json → Prop} :
    (∀ field ∈ fields, Q field) ↔
      ∀ key value, fields.find key = some value → Q (key, value) := by
  constructor
  · intro each key value found
    exact each (key, value) (Dict.find_mem found)
  · intro each field member
    exact each field.1 field.2 ((mem_iff_find nodup field).mp member)

theorem distinct_fileEntry (distinct : (Json.obj manifest).DistinctKeys) :
    (fileEntry manifest).DistinctKeys :=
  .obj _ (List.nodup_singleton _) (by simpa using distinct)

theorem clean_fileEntry (clean : (Json.obj manifest).Clean) :
    (fileEntry manifest).Clean := by
  rw [fileEntry, clean_obj, List.forall_mem_singleton]
  exact ⟨(by decide : Encodable (text "manifest")), clean⟩

theorem sorted_fileEntry (manifest : Dict) :
    (fileEntry manifest).sorted = fileEntry manifest.sorted := by
  unfold fileEntry
  rw [Dict.sorted_obj, Dict.sorted, List.map_singleton, Dict.sorted_obj]
  rfl

theorem nesting_fileEntry (manifest : Dict) :
    nesting (fileEntry manifest) = nesting (.obj manifest) + 1 := by
  simp [fileEntry, nesting, nestingFields, nestingField]

theorem nesting_obj_le {fields : Dict} {bound : Nat} :
    nesting (.obj fields) ≤ bound + 1 ↔
      ∀ field ∈ fields, nesting field.2 ≤ bound := by
  rw [nesting, Nat.add_le_add_iff_right, nestingFields_le]

section

variable (sound : P.SchemaSound)

include sound

/-- The entries with one more manifest, which are to be written. -/
theorem Holds.with_entry (holds : Holds P depth levels file held)
    {entries : Dict} (read : loadRaw (storedFile depth file) = .ok entries)
    (announced : Announced P pubkey manifest) :
    let written := entries.set pubkey (fileEntry manifest)
    (Json.obj written).DistinctKeys ∧ (Json.obj written).Clean ∧
      (∀ bound, (∀ pubkey manifest, held pubkey = some manifest →
          nesting (.obj manifest) + 2 ≤ bound) →
        (nesting (.obj written) ≤ bound ↔
          nesting (.obj manifest) + 2 ≤ bound)) ∧
      ∀ other, written.sorted.find other =
        (Function.update held pubkey (some manifest) other).map
          fun manifest => fileEntry manifest.sorted := by
  intro written
  obtain ⟨entries', read', nodup, stored⟩ := holds.stored
  rw [read] at read'
  cases read'
  have nodup' : (written.map (·.1)).Nodup := set_keys_nodup nodup _ _
  have self : written.find pubkey = some (fileEntry manifest) :=
    Dict.find_set_self _ _ _
  have each : ∀ other value, written.find other = some value →
      (other = pubkey ∧ value = fileEntry manifest) ∨
      ∃ earlier, held other = some earlier ∧
        value = fileEntry earlier.sorted := by
    intro other value found
    by_cases same : other = pubkey
    · subst same
      rw [self] at found
      exact .inl ⟨rfl, (Option.some.inj found).symm⟩
    · rw [Dict.find_set_other same, stored, Option.map_eq_some_iff] at found
      obtain ⟨earlier, isHeld, rfl⟩ := found
      exact .inr ⟨earlier, isHeld, rfl⟩
  refine ⟨.obj _ nodup' ((forall_field_iff nodup').mpr ?_), ?_, ?_, ?_⟩
  · intro other value found
    rcases each other value found with ⟨rfl, rfl⟩ | ⟨earlier, isHeld, rfl⟩
    · exact distinct_fileEntry announced.distinct
    · exact distinct_fileEntry
        (holds.announced _ _ isHeld).1.distinct_sorted
  · rw [clean_obj, forall_field_iff nodup']
    intro other value found
    rcases each other value found with ⟨rfl, rfl⟩ | ⟨earlier, isHeld, rfl⟩
    · obtain ⟨encodable, clean⟩ := announced.clean sound
      exact ⟨encodable, clean_fileEntry clean⟩
    · have isAnnounced := (holds.announced _ _ isHeld).1
      exact ⟨(isAnnounced.clean sound).1,
        clean_fileEntry (isAnnounced.clean_sorted sound)⟩
  · intro bound bounds
    cases bound with
    | zero => exact iff_of_false (by simp [nesting]) (by omega)
    | succ bound =>
        rw [nesting_obj_le, forall_field_iff nodup']
        constructor
        · intro all
          have first := all _ _ self
          dsimp only at first
          rw [nesting_fileEntry] at first
          omega
        · intro small other value found
          rcases each other value found with ⟨rfl, rfl⟩ | ⟨earlier, isHeld, rfl⟩
          · dsimp only
            rw [nesting_fileEntry]
            omega
          · have inside := bounds _ _ isHeld
            have sorted := nesting_sorted_le (.obj earlier)
            rw [Dict.sorted_obj] at sorted
            dsimp only
            rw [nesting_fileEntry]
            omega
  · intro other
    rw [Dict.find_sorted]
    by_cases same : other = pubkey
    · subst same
      rw [self, Function.update_self]
      exact congrArg some (sorted_fileEntry manifest)
    · rw [Dict.find_set_other same, stored, Function.update_of_ne same]
      cases held other with
      | none => rfl
      | some earlier =>
          refine congrArg some ((sorted_fileEntry _).trans ?_)
          rw [Dict.sorted_sorted]

/-- What announcing a manifest makes of the file. -/
theorem Holds.announced_file (holds : Holds P depth levels file held)
    (announced : Announced P pubkey manifest)
    (fits : nesting (.obj manifest) + 2 ≤ levels) :
    ∃ bytes, announcement P depth levels file manifest =
        .ok (pubkey, bytes) ∧
      Represents P depth levels (some bytes)
        (if nesting (.obj manifest) + 2 ≤ depth then
          some (Function.update held pubkey (some manifest)) else none) := by
  obtain ⟨entries, read, nodup, _⟩ := holds.stored
  obtain ⟨distinct, clean, nested, found⟩ :=
    holds.with_entry sound read announced
  have written := (nested levels fun _ _ isHeld =>
    (holds.announced _ _ isHeld).2.1).mpr fits
  obtain ⟨written, bytes, dumped, encoded, decoded, loaded⟩ :=
    exists_file distinct clean written depth
  refine ⟨bytes, ?_, ?_⟩
  · unfold announcement announcedEntries
    rw [announced.key, ok_bind, read, mapError_ok, ok_bind]
    change (dumpIndented levels 0 (.obj (entries.set pubkey
      (fileEntry manifest)))).mapError _ >>= _ = _
    rw [dumped, mapError_ok, ok_bind, encoded, mapError_ok, ok_bind]
    rfl
  · have readable := nested depth fun _ _ isHeld =>
      (holds.announced _ _ isHeld).2.2
    by_cases shallow : nesting (.obj manifest) + 2 ≤ depth
    · rw [if_pos (readable.mpr shallow), Dict.sorted_obj] at loaded
      rw [if_pos shallow]
      refine ⟨?_, _, ?_, sorted_keys_nodup (set_keys_nodup nodup _ _), found⟩
      · intro other earlier isHeld
        by_cases same : other = pubkey
        · subst same
          rw [Function.update_self] at isHeld
          cases isHeld
          exact ⟨announced, fits, shallow⟩
        · rw [Function.update_of_ne same] at isHeld
          exact holds.announced other earlier isHeld
      · unfold storedFile
        dsimp only
        rw [decoded]
        dsimp only
        rw [loaded]
        rfl
    · rw [if_neg (readable.not.mpr shallow)] at loaded
      rw [if_neg shallow]
      refine ⟨.recursionError, ?_⟩
      unfold storedFile
      dsimp only
      rw [decoded]
      dsimp only
      rw [loaded]

/-- A manifest that is nested too deeply is not written. -/
theorem Holds.unwritten (holds : Holds P depth levels file held)
    (announced : Announced P pubkey manifest)
    (unfit : ¬ nesting (.obj manifest) + 2 ≤ levels) :
    ∃ error, announcement P depth levels file manifest = .error error := by
  obtain ⟨entries, read, _, _⟩ := holds.stored
  obtain ⟨_, _, nested, _⟩ := holds.with_entry sound read announced
  have tooDeep := (nested levels fun _ _ isHeld =>
    (holds.announced _ _ isHeld).2.1).not.mpr unfit
  unfold announcement announcedEntries
  rw [announced.key, ok_bind, read, mapError_ok, ok_bind]
  change ∃ error, (dumpIndented levels 0 (.obj (entries.set pubkey
    (fileEntry manifest)))).mapError _ >>= _ = _
  cases dumped : dumpIndented levels 0 (.obj (entries.set pubkey
      (fileEntry manifest))) with
  | error error => exact ⟨_, rfl⟩
  | ok written =>
      obtain ⟨_, inside, _⟩ :=
        (dumpIndented_eq_ok (Nat.zero_le _) _ _).mp dumped
      rw [Nat.zero_add] at inside
      exact absurd inside tooDeep

end

theorem announceFile_error {error : AnnounceError}
    (failed : announcement P depth levels file manifest = .error error)
    (replaced : Except PyExc Unit) :
    (announceFile P depth levels file manifest replaced).2 = file := by
  unfold announceFile
  rw [failed]

theorem announceFile_unreadable {error : PyExc}
    (unreadable : storedFile depth file = .error error)
    (replaced : Except PyExc Unit) :
    (announceFile P depth levels file manifest replaced).2 = file := by
  obtain ⟨error', failed⟩ : ∃ error',
      announcement P depth levels file manifest = .error error' := by
    unfold announcement announcedEntries loadRaw
    rw [unreadable]
    cases announcedKey P manifest none with
    | error error' => exact ⟨error', rfl⟩
    | ok pubkey => exact ⟨.raised error, rfl⟩
  exact announceFile_error failed replaced

/-- The file that a request leaves. -/
theorem postAnnounce_file (body : Bytes) (replaced : Except PyExc Unit) :
    (postAnnounce P codecs depth levels file body replaced).2 =
      match bodyJson codecs depth body with
      | .ok (.obj manifest) =>
          (announceFile P depth levels file manifest replaced).2
      | _ => file := by
  unfold postAnnounce
  dsimp only
  rw [announceHandler_file]
  cases bodyJson codecs depth body with
  | error error => rfl
  | ok value => cases value <;> rfl

/-- One request is followed by what is listed. -/
theorem represents_after (sound : P.SchemaSound) {listing : Listing}
    (represents : Represents P depth levels file listing)
    (post : AnnouncePost) :
    Represents P depth levels
      (postAnnounce P codecs depth levels file post.body post.replaced).2
      (listing.after P codecs depth levels post) := by
  rw [postAnnounce_file]
  cases listing with
  | none =>
      obtain ⟨error, unreadable⟩ := represents
      refine ⟨error, ?_⟩
      split
      · rwa [announceFile_unreadable unreadable]
      · exact unreadable
  | some held =>
      have holds : Holds P depth levels file held := represents
      unfold Listing.after AnnouncePost.accepted
      rw [Option.bind_some]
      cases received : bodyJson codecs depth post.body with
      | error error =>
          cases post.replaced <;> exact holds
      | ok value =>
          cases value with
          | obj manifest =>
              dsimp only
              cases replaced : post.replaced with
              | error error =>
                  have unchanged : (announceFile P depth levels file manifest
                      (.error error)).2 = file := by
                    unfold announceFile
                    cases announcement P depth levels file manifest <;> rfl
                  rw [unchanged]
                  exact holds
              | ok done =>
                  dsimp only
                  cases key : announcedKey P manifest none with
                  | error error =>
                      have failed : announcement P depth levels file manifest =
                          .error error := by
                        unfold announcement announcedEntries
                        rw [key]
                        rfl
                      rw [announceFile_error failed]
                      exact holds
                  | ok pubkey =>
                      have announced : Announced P pubkey manifest :=
                        ⟨key, (bodyJson_readable received).1⟩
                      dsimp only
                      by_cases fits : nesting (.obj manifest) + 2 ≤ levels
                      · obtain ⟨bytes, written, represents⟩ :=
                          holds.announced_file sound announced fits
                        rw [if_pos fits]
                        unfold announceFile
                        rw [written]
                        exact represents
                      · obtain ⟨error, failed⟩ :=
                          holds.unwritten sound announced fits
                        rw [if_neg fits, announceFile_error failed]
                        exact holds
          | _ => cases post.replaced <;> exact holds

theorem represents_all (sound : P.SchemaSound) (posts : List AnnouncePost)
    {listing : Listing} (represents : Represents P depth levels file listing) :
    Represents P depth levels (announceAll P codecs depth levels file posts)
      (posts.foldl (Listing.after P codecs depth levels) listing) := by
  induction posts generalizing file listing with
  | nil => exact represents
  | cons post rest induction =>
      exact induction (represents_after sound represents post)

theorem represents_fresh :
    Represents P depth levels none (some fun _ => none) :=
  ⟨nofun, [], rfl, List.nodup_nil, fun _ => rfl⟩

/-- A listed manifest that serves the model, at the endpoint it signs. -/
structure Listed (held : Text → Option Dict) (model : Option Text)
    (provider : DiscoveredProvider) : Prop where
  listed : ∃ pubkey manifest, held pubkey = some manifest ∧
    provider.manifest = manifest.sorted
  endpoint : provider.manifest.get "manifest_uri" = .str provider.baseUrl
  serves : ∀ wanted, model = some wanted → provider.lists wanted = true

/-- Whatever lists manifests that are held, discovery finds those that serve
the model. -/
theorem discover_held (sound : P.SchemaSound) {directory : AnyDirectory}
    {manifests : List (Option Dict)}
    (announced : ∀ pubkey manifest, held pubkey = some manifest →
      Announced P pubkey manifest)
    (lists : directory.manifests = .ok manifests)
    (inside : ∀ manifest, some manifest ∈ manifests → ∃ pubkey earlier,
      held pubkey = some earlier ∧ manifest = earlier.sorted) :
    ∃ found, directory.discover P model = .ok found ∧
      (found.map DiscoveredProvider.pubkey).Nodup ∧
      ∀ provider, provider ∈ found ↔
        some provider.manifest ∈ manifests ∧ Listed held model provider := by
  have verifies : ∀ pubkey manifest, held pubkey = some manifest →
      verifyProviderManifest P manifest.sorted = .ok true :=
    fun pubkey manifest isHeld =>
      (announced pubkey manifest isHeld).verified_sorted sound
  have pubkeyOf : ∀ {provider : DiscoveredProvider} {pubkey manifest},
      held pubkey = some manifest → provider.manifest = manifest.sorted →
        provider.pubkey = pubkey := by
    intro provider pubkey manifest isHeld same
    unfold DiscoveredProvider.pubkey
    rw [same, (announced pubkey manifest isHeld).key_sorted sound]
    rfl
  obtain ⟨found, discovers, discovery⟩ :=
    @discover_sound P manifests model sound directory lists (by
      intro manifest member
      obtain ⟨pubkey, earlier, isHeld, rfl⟩ := inside manifest member
      exact ⟨true, verifies pubkey earlier isHeld⟩)
  refine ⟨found, discovers, discovery.unique, fun provider => ?_⟩
  constructor
  · intro member
    have eligible := discovery.eligible provider member
    exact ⟨eligible.listed, inside _ eligible.listed, eligible.endpoint,
      eligible.serves⟩
  · rintro ⟨member, listed⟩
    obtain ⟨pubkey, earlier, isHeld, same⟩ := listed.listed
    obtain ⟨uri, located, nonempty⟩ :=
      (announced pubkey earlier isHeld).endpoint_sorted sound
    have located' := listed.endpoint
    rw [same, located] at located'
    have eligible : Eligible P manifests model provider :=
      ⟨member, by rw [same]; exact verifies pubkey earlier isHeld,
        listed.endpoint, by rwa [← Json.str.inj located'], listed.serves⟩
    obtain ⟨other, isFound, sameKey⟩ :=
      discovery.represented provider eligible
    have isOther := discovery.eligible other isFound
    obtain ⟨pubkey', earlier', isHeld', same'⟩ := inside _ isOther.listed
    rw [pubkeyOf isHeld' same', pubkeyOf isHeld same] at sameKey
    subst sameKey
    rw [isHeld] at isHeld'
    cases isHeld'
    have sameManifest : other.manifest = provider.manifest := same'.trans same.symm
    have sameUrl := isOther.endpoint
    rw [sameManifest, listed.endpoint] at sameUrl
    have sameProvider : other = provider := by
      cases other
      cases provider
      cases sameManifest
      cases sameUrl
      rfl
    exact sameProvider ▸ isFound

/-- What the file lists. -/
theorem Holds.lists (holds : Holds P depth levels file held) :
    ∃ manifests, (AnyDirectory.file (storedFile depth file)).manifests =
        .ok manifests ∧
      ∀ manifest, some manifest ∈ manifests ↔ ∃ pubkey earlier,
        held pubkey = some earlier ∧ manifest = earlier.sorted := by
  obtain ⟨entries, read, nodup, stored⟩ := holds.stored
  refine ⟨entries.map fun entry => entryManifest entry.2, ?_, ?_⟩
  · rw [manifests_eq_ok]
    change fileManifests (storedFile depth file) >>= _ = _
    unfold fileManifests
    rw [read]
    rfl
  · intro manifest
    rw [List.mem_map]
    constructor
    · rintro ⟨field, member, isManifest⟩
      have found := (mem_iff_find nodup field).mp member
      rw [stored, Option.map_eq_some_iff] at found
      obtain ⟨earlier, isHeld, same⟩ := found
      rw [← same] at isManifest
      exact ⟨field.1, earlier, isHeld, (Option.some.inj isManifest).symm⟩
    · rintro ⟨pubkey, earlier, isHeld, rfl⟩
      refine ⟨(pubkey, fileEntry earlier.sorted), ?_, rfl⟩
      rw [mem_iff_find nodup, stored, isHeld]
      rfl

/-- The manifests of a list of providers, as the service sends them. -/
def listContent (found : List DiscoveredProvider) : Json :=
  .obj [("providers", .arr (found.map fun provider => .obj provider.manifest))]

private theorem received_listContent {found : List DiscoveredProvider}
    (each : ∀ provider ∈ found, (Json.obj provider.manifest).DistinctKeys ∧
      (Json.obj provider.manifest).Clean ∧
      nesting (.obj provider.manifest) + 2 ≤ depth) (deep : 2 ≤ depth) :
    received codecs depth (served (jsonResponse 200 (listContent found))) =
      .ok (listContent found) := by
  have distinct : (listContent found).DistinctKeys := by
    refine .obj _ (List.nodup_singleton _) ?_
    rw [List.forall_mem_singleton]
    refine .arr _ ?_
    rw [List.forall_mem_map]
    exact fun provider member => (each provider member).1
  have clean : (listContent found).Clean := by
    rw [listContent, clean_obj, List.forall_mem_singleton, clean_arr,
      List.forall_mem_map]
    exact ⟨(by decide : Encodable (text "providers")),
      fun provider member => (each provider member).2.1⟩
  have shallow : nesting (listContent found) ≤ depth := by
    obtain ⟨bound, rfl⟩ := Nat.exists_eq_add_of_le' deep
    rw [listContent, nesting_obj_le, List.forall_mem_singleton, nesting,
      Nat.add_le_add_iff_right, nestingItems_le, List.forall_mem_map]
    exact fun provider member =>
      Nat.le_of_add_le_add_right (each provider member).2.2
  obtain ⟨response, sent⟩ := (jsonResponse_isOk 200 _).mpr clean
  obtain ⟨status, _, written⟩ := jsonResponse_eq_ok.mp sent
  have read := @bodyJson_dumpBytes codecs depth _ _ distinct shallow written
  rw [sent]
  unfold received served
  dsimp only
  rw [status, if_pos (by decide), read, mapError_ok]

/-- **The service lists what was announced last.**  After any requests to
announce, a client finds for each provider key the manifest of the last request
that was accepted, if it serves the model, at the endpoint it signs.  Once a
manifest was accepted that is nested too deeply to be read again, a client
finds nothing. -/
theorem service_lists_last (sound : P.SchemaSound) (codecs : Codecs)
    (deep : 2 ≤ depth) (levels : Nat) (posts : List AnnouncePost)
    (encodable : ∀ wanted, model = some wanted → Encodable wanted) :
    let file := announceAll P codecs depth levels none posts
    let discovered := httpDiscover P codecs depth (getProviders P depth file)
      model
    match listing P codecs depth levels posts with
    | some held => ∃ found, discovered = .ok found ∧
        (found.map DiscoveredProvider.pubkey).Nodup ∧
        ∀ provider, provider ∈ found ↔ Listed held model provider
    | none => discovered = .error .discoveryError := by
  intro file discovered
  have represents := @represents_all P codecs depth levels none sound posts _
    represents_fresh
  have askable : ∀ wanted ∈ model.filter (· ≠ []), Encodable wanted :=
    fun wanted asked => encodable wanted (Option.filter_eq_some_iff.mp asked).1
  have asks : discovered = (Directory.http (received codecs depth
      (getProviders P depth file (model.filter (· ≠ []))))).discover P
        model := by
    change httpDiscover P codecs depth _ model = _
    unfold httpDiscover
    dsimp only
    rw [if_pos askable]
  change Represents P depth levels file (listing P codecs depth levels posts)
    at represents
  cases isListing : listing P codecs depth levels posts with
  | none =>
      rw [isListing] at represents
      obtain ⟨error, unreadable⟩ := represents
      have fails : getProviders P depth file (model.filter (· ≠ [])) =
          internalError := by
        unfold getProviders
        rw [discover_eq]
        change served (((fileManifests (storedFile depth file) >>= _) >>= _)
          >>= _) = _
        unfold fileManifests loadRaw
        rw [unreadable]
        rfl
      dsimp only
      rw [asks, fails]
      rfl
  | some held =>
      rw [isListing] at represents
      have holds : Holds P depth levels file held := represents
      have announced : ∀ pubkey manifest, held pubkey = some manifest →
          Announced P pubkey manifest :=
        fun pubkey manifest isHeld => (holds.announced _ _ isHeld).1
      obtain ⟨manifests, lists, members⟩ := holds.lists
      obtain ⟨sent, discovers, _, isSent⟩ :=
        @discover_held P held (model.filter (· ≠ [])) sound _ _ announced lists
          fun manifest member => (members manifest).mp member
      have response : getProviders P depth file (model.filter (· ≠ [])) =
          served (jsonResponse 200 (listContent sent)) := by
        unfold getProviders
        rw [discovers]
        rfl
      have readable : ∀ provider ∈ sent,
          (Json.obj provider.manifest).DistinctKeys ∧
            (Json.obj provider.manifest).Clean ∧
            nesting (.obj provider.manifest) + 2 ≤ depth := by
        intro provider member
        obtain ⟨pubkey, earlier, isHeld, same⟩ :=
          ((isSent provider).mp member).2.listed
        have sorted := nesting_sorted_le (.obj earlier)
        rw [Dict.sorted_obj] at sorted
        have shallow := (holds.announced _ _ isHeld).2.2
        rw [same]
        exact ⟨(announced _ _ isHeld).distinct_sorted,
          (announced _ _ isHeld).clean_sorted sound, by omega⟩
      have relayed : (AnyDirectory.remote (Directory.http
          (.ok (listContent sent)))).manifests =
            .ok (sent.map fun provider => some provider.manifest) := by
        rw [manifests_eq_ok, List.map_map]
        change Except.ok ((sent.map fun provider =>
          Json.obj provider.manifest).map _) = _
        rw [List.map_map]
        rfl
      obtain ⟨found, finds, unique, isFound⟩ :=
        @discover_held P held model sound _ _ announced relayed (by
          intro manifest member
          obtain ⟨provider, inSent, same⟩ := List.mem_map.mp member
          cases same
          exact ((isSent provider).mp inSent).2.listed)
      dsimp only
      refine ⟨found, ?_, unique, fun provider => ?_⟩
      · rw [asks, response, received_listContent readable deep]
        exact finds
      · rw [isFound]
        refine and_iff_right_of_imp fun listed => List.mem_map.mpr
          ⟨provider, (isSent provider).mpr ⟨?_, ?_⟩, rfl⟩
        · obtain ⟨pubkey, earlier, isHeld, same⟩ := listed.listed
          exact (members _).mpr ⟨pubkey, earlier, isHeld, same⟩
        · exact ⟨listed.listed, listed.endpoint, fun wanted asked =>
            listed.serves wanted (Option.filter_eq_some_iff.mp asked).1⟩

/-- The newer manifest is announced, and then the older one. -/
theorem service_lists_older : ∃ posts held found,
    listing manifestTable.platform utf8Codecs 4 4 posts = some held ∧
      held nodeKey = some olderManifest ∧
      httpDiscover manifestTable.platform utf8Codecs 4
          (getProviders manifestTable.platform 4
            (announceAll manifestTable.platform utf8Codecs 4 4 none posts))
          (some "m") = .ok found ∧
      ∀ provider, provider ∈ found ↔ Listed held (some "m") provider := by
  have sends : ∀ manifest ∈ [newerManifest, olderManifest], ∃ body,
      bodyJson utf8Codecs 4 body = .ok (.obj manifest) ∧
        announcedKey manifestTable.platform manifest none = .ok nodeKey ∧
        nesting (.obj manifest) + 2 ≤ 4 := by
    intro manifest member
    obtain ⟨distinct, clean, shallow, key⟩ :
        (Json.obj manifest).DistinctKeys ∧ (Json.obj manifest).Clean ∧
          nesting (.obj manifest) + 2 ≤ 4 ∧
          (announcedKey manifestTable.platform manifest none).toOption =
            some nodeKey := by
      revert manifest
      decide +kernel
    obtain ⟨body, sent⟩ := (dumpBytes_isOk false _).mpr clean
    refine ⟨body, bodyJson_dumpBytes distinct (by omega) sent, ?_, shallow⟩
    cases announced : announcedKey manifestTable.platform manifest none with
    | error error =>
        rw [announced] at key
        cases key
    | ok pubkey =>
        rw [announced] at key
        cases key
        rfl
  obtain ⟨newer, newerSent, newerKey, newerFits⟩ :=
    sends newerManifest List.mem_cons_self
  obtain ⟨older, olderSent, olderKey, olderFits⟩ :=
    sends olderManifest (by simp)
  have isListing : listing manifestTable.platform utf8Codecs 4 4
      [⟨newer, .ok ()⟩, ⟨older, .ok ()⟩] = some (Function.update
        (Function.update (fun _ => none) nodeKey (some newerManifest)) nodeKey
          (some olderManifest)) := by
    simp [listing, Listing.after, AnnouncePost.accepted, newerSent, newerKey,
      newerFits, olderSent, olderKey, olderFits]
  have lists := @service_lists_last manifestTable.platform 4 (some "m")
    manifestTable.platform_schemaSound utf8Codecs (by decide) 4
    [⟨newer, .ok ()⟩, ⟨older, .ok ()⟩] (by
      rintro wanted ⟨⟩
      decide)
  rw [isListing] at lists
  obtain ⟨found, finds, _, isFound⟩ := lists
  exact ⟨_, _, found, isListing, Function.update_self _ _ _, finds, isFound⟩

end SovereignInference.SipDiscovery
