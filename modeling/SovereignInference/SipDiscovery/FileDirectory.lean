import SovereignInference.Collections.Overwriting
import SovereignInference.SipDiscovery.Directory
import Mathlib.Order.WithBot

/-!
# A directory in a shared file

Anyone who holds a verified manifest can announce it.  The file keeps the
manifest that was announced last for each provider key, whatever it replaces.
-/

namespace SovereignInference.SipDiscovery

open Python Effects SipProtocol Collections

/-- What reading the file gives: its JSON value, or nothing if there is no
readable JSON, or an exception that is not caught. -/
abbrev StoredFile := Except PyExc (Option Json)

def loadRaw (file : StoredFile) : Except PyExc Dict := do
  return ((← file).bind Json.asDict).getD []

/-- The manifest of an entry, if the entry is a dict that holds a dict. -/
def entryManifest (entry : Json) : Option Dict :=
  entry.asDict.bind fun fields => (fields.get "manifest").asDict

def fileManifests (file : StoredFile) : Except PyExc (List (Option Dict)) := do
  return (← loadRaw file).map fun entry => entryManifest entry.2

/-- A refusal with its message, or another exception. -/
inductive AnnounceError where
  | refused (message : Text)
  | raised (error : PyExc)

/-- The signed `manifest_uri`, which a given `base_url` has to match. -/
def signedEndpoint (manifest : Dict) (baseUrl : Option Text) :
    Except AnnounceError Text :=
  match manifest.get "manifest_uri" with
  | .str uri =>
      if uri = [] then .error (.refused noEndpoint)
      else if baseUrl.all (· = uri) then .ok uri
      else .error (.refused ("explicit base_url does not match the signed " ++
        text "manifest_uri; refusing to announce an endpoint the manifest " ++
        text "signature does not cover"))
  | _ => .error (.refused noEndpoint)
where
  noEndpoint : Text :=
    text "cannot announce a provider whose manifest has no manifest_uri; " ++
      text "a discoverable manifest must advertise where to reach the node"

section

variable (P : Platform)

def requireVerified (manifest : Dict) : Except AnnounceError Unit := do
  if !(← (verifyProviderManifest P manifest).mapError .raised) then
    throw (.refused
      "refusing to announce an invalid or unsigned provider manifest")

/-- The key of a manifest that may be announced. -/
def announcedKey (manifest : Dict) (baseUrl : Option Text) :
    Except AnnounceError Text := do
  requireVerified P manifest
  let uri ← signedEndpoint manifest baseUrl
  (DiscoveredProvider.providerPubkey P ⟨uri, manifest⟩).mapError .raised

/-- The entries that `announce` writes. -/
def withEntry (entries : Dict) (pubkey : Text) (manifest : Dict) : Dict :=
  entries.set pubkey (.obj [("manifest", .obj manifest)])

/-- `announce` up to its write. -/
def announcedEntries (file : StoredFile) (manifest : Dict)
    (baseUrl : Option Text) : Except AnnounceError (Text × Dict) := do
  let pubkey ← announcedKey P manifest baseUrl
  let entries ← (loadRaw file).mapError .raised
  return (pubkey, withEntry entries pubkey manifest)

/-- `FileDirectory.announce`: the key or the error, and the file it leaves.
The last argument is what writing the file gives. -/
def announce (file : StoredFile) (manifest : Dict) (baseUrl : Option Text)
    (written : Except PyExc Unit) : Except AnnounceError Text × StoredFile :=
  match announcedEntries P file manifest baseUrl, written with
  | .ok (pubkey, entries), .ok () => (.ok pubkey, .ok (some (.obj entries)))
  | .ok _, .error error => (.error (.raised error), file)
  | .error error, _ => (.error error, file)

end

/-- `POST /directory/announce`, with what its body is read as: the status and
the content or an exception, and the file it leaves. -/
def announceHandler {φ : Type} (announce : Dict → Except AnnounceError Text × φ)
    (file : φ) (body : Except PyExc Json) : Except PyExc (Nat × Dict) × φ :=
  match body with
  | .error error =>
      (if error.isValueError then .ok (400, [("error", .str
        "body must be a JSON provider manifest")]) else .error error, file)
  | .ok body =>
      match body.asDict with
      | none => (.ok (400, [("error", .str "body must be a JSON object")]), file)
      | some manifest =>
          let (answer, file) := announce manifest
          (match answer with
            | .ok ref => .ok (200, [("ref", .str ref)])
            | .error (.refused message) => .ok (400, [("error", .str message)])
            | .error (.raised error) => .error error, file)

theorem announceHandler_file {φ : Type}
    (announce : Dict → Except AnnounceError Text × φ) (file : φ)
    (body : Except PyExc Json) :
    (announceHandler announce file body).2 =
      ((body.toOption.bind Json.asDict).elim file fun manifest =>
        (announce manifest).2) := by
  cases body with
  | error error => rfl
  | ok body =>
      unfold announceHandler
      dsimp only [Except.toOption, Option.bind_some]
      cases body.asDict <;> rfl

section

variable (P : Platform)

/-- The request, over a directory that is read as a JSON value. -/
def announceOverHttp (file : StoredFile) (body : Except PyExc Json)
    (written : Except PyExc Unit) : Except PyExc (Nat × Dict) × StoredFile :=
  announceHandler (fun manifest => announce P file manifest none written) file
    body

inductive AnnounceRequest where
  | direct (manifest : Dict) (baseUrl : Option Text)
  | service (body : Except PyExc Json)

/-- A call, and what writing the file gives if the call gets there. -/
structure AnnounceCall where
  request : AnnounceRequest
  written : Except PyExc Unit

/-- The file that a call leaves. -/
def AnnounceCall.run (call : AnnounceCall) (file : StoredFile) : StoredFile :=
  match call.request with
  | .direct manifest baseUrl =>
      (announce P file manifest baseUrl call.written).2
  | .service body => (announceOverHttp P file body call.written).2

/-- The `published_at` of the manifest stored for a key. -/
def storedStamp (file : StoredFile) (key : Text) : WithBot Text :=
  match loadRaw file with
  | .ok entries =>
      ((entryManifest (entries.get key)).bind fun manifest =>
        (manifest.get "published_at").asStr).elim ⊥ (fun stamp => ↑stamp)
  | .error _ => ⊥

/-- From call to call, no stored `published_at` decreases. -/
def NeverRollsBack (file : StoredFile) : List AnnounceCall → Prop
  | [] => True
  | call :: rest =>
      (∀ key, storedStamp file key ≤ storedStamp (call.run P file) key) ∧
        NeverRollsBack (call.run P file) rest

/-- The manifest that a call announces, with the endpoint it asserts. -/
def AnnounceRequest.manifest : AnnounceRequest → Option (Dict × Option Text)
  | .direct manifest baseUrl => some (manifest, baseUrl)
  | .service body => (body.toOption.bind Json.asDict).map (·, none)

/-- The key and the stamp that a call writes to a readable file, if it writes
at all. -/
def AnnounceCall.writes (call : AnnounceCall) : Option (Text × WithBot Text) :=
  call.request.manifest.bind fun (manifest, baseUrl) =>
    match announcedKey P manifest baseUrl, call.written with
    | .ok pubkey, .ok () =>
        some (pubkey, ((manifest.get "published_at").asStr).elim ⊥
          (fun stamp => ↑stamp))
    | _, _ => none

end

variable {P : Platform} {file : StoredFile} {call : AnnounceCall}

theorem run_eq (call : AnnounceCall) :
    call.run P file = call.request.manifest.elim file fun announced =>
      (announce P file announced.1 announced.2 call.written).2 := by
  obtain ⟨request, written⟩ := call
  cases request with
  | direct manifest baseUrl => rfl
  | service body =>
      show (announceOverHttp P file body written).2 = _
      unfold announceOverHttp
      rw [announceHandler_file]
      dsimp only [AnnounceRequest.manifest]
      cases body.toOption.bind Json.asDict <;> rfl

/-- A call leaves the file, or puts a manifest under its key. -/
theorem run_readable {entries : Dict} (readable : loadRaw file = .ok entries) :
    (call.writes P = none ∧ call.run P file = file) ∨
      ∃ manifest baseUrl pubkey,
        call.request.manifest = some (manifest, baseUrl) ∧
        call.writes P = some (pubkey,
          ((manifest.get "published_at").asStr).elim ⊥ (fun stamp => ↑stamp)) ∧
        call.run P file = .ok (some (.obj
          (entries.set pubkey (.obj [("manifest", .obj manifest)])))) := by
  rw [run_eq]
  unfold AnnounceCall.writes
  cases announced : call.request.manifest with
  | none => exact .inl ⟨rfl, rfl⟩
  | some pair =>
      obtain ⟨manifest, baseUrl⟩ := pair
      dsimp only [Option.bind_some, Option.elim_some]
      unfold announce announcedEntries
      rw [readable]
      cases key : announcedKey P manifest baseUrl with
      | error error => exact .inl ⟨rfl, rfl⟩
      | ok pubkey =>
          cases call.written with
          | error error => exact .inl ⟨rfl, rfl⟩
          | ok done => exact .inr ⟨manifest, baseUrl, pubkey, rfl, rfl, rfl⟩

theorem run_unreadable {error : PyExc} (unreadable : loadRaw file = .error error) :
    call.run P file = file := by
  rw [run_eq]
  cases call.request.manifest with
  | none => rfl
  | some announced =>
      dsimp only [Option.elim_some]
      unfold announce announcedEntries
      rw [unreadable]
      cases announcedKey P announced.1 announced.2 <;> rfl

theorem storedStamp_set {entries : Dict} (readable : loadRaw file = .ok entries)
    (pubkey : Text) (manifest : Dict) :
    storedStamp (.ok (some (.obj
        (entries.set pubkey (.obj [("manifest", .obj manifest)]))))) =
      Function.update (storedStamp file) pubkey
        (((manifest.get "published_at").asStr).elim ⊥
          (fun stamp => ↑stamp)) := by
  funext key
  by_cases same : key = pubkey
  · subst same
    rw [Function.update_self]
    show ((entryManifest (Dict.get (entries.set key _) key)).bind _).elim _ _ = _
    rw [Dict.get, Dict.find_set_self]
    rfl
  · rw [Function.update_of_ne same]
    show ((entryManifest (Dict.get (entries.set pubkey _) key)).bind _).elim _ _ =
      storedStamp file key
    rw [Dict.get, Dict.find_set_other same, storedStamp, readable]
    rfl

private theorem le_update_iff {held : Text → WithBot Text} {key : Text}
    {stamp : WithBot Text} :
    (∀ other, held other ≤ Function.update held key stamp other) ↔
      held key ≤ stamp := by
  constructor
  · intro notLess
    have atKey := notLess key
    rwa [Function.update_self] at atKey
  · intro notLess other
    by_cases same : other = key
    · subst same
      rwa [Function.update_self]
    · rw [Function.update_of_ne same]

theorem neverRollsBack_writes {entries : Dict} (calls : List AnnounceCall)
    (readable : loadRaw file = .ok entries) :
    NeverRollsBack P file calls ↔
      NeverBack (storedStamp file) (calls.filterMap (AnnounceCall.writes P)) := by
  induction calls generalizing file entries with
  | nil => exact Iff.rfl
  | cons call rest induction =>
      rw [NeverRollsBack]
      rcases @run_readable P file call entries readable with
        ⟨nothing, unchanged⟩ | ⟨manifest, baseUrl, pubkey, _, written, replaced⟩
      · rw [unchanged, List.filterMap_cons_none nothing, ← induction readable]
        exact and_iff_right fun key => le_rfl
      · rw [replaced, List.filterMap_cons_some written, NeverBack,
          induction rfl, storedStamp_set readable]
        exact and_congr_left fun _ => le_update_iff

private theorem neverRollsBack_unreadable {error : PyExc}
    (unreadable : loadRaw file = .error error) (calls : List AnnounceCall) :
    NeverRollsBack P file calls := by
  induction calls with
  | nil => trivial
  | cons call rest induction =>
      rw [NeverRollsBack, run_unreadable unreadable]
      exact ⟨fun key => le_rfl, induction⟩

/-- **A replay rolls a key back exactly when the announcements of the key do
not come in the order of their `published_at`.** -/
theorem never_rolls_back_iff (calls : List AnnounceCall) :
    NeverRollsBack P file calls ↔
      ∀ entries, loadRaw file = .ok entries → ∀ key,
        (storedStamp file key ::
          stampsOf key (calls.filterMap (AnnounceCall.writes P))).IsChain
            (· ≤ ·) := by
  cases readable : loadRaw file with
  | error error =>
      have never := @neverRollsBack_unreadable P file error readable calls
      exact iff_of_true never (by simp)
  | ok entries =>
      rw [neverRollsBack_writes calls readable, neverBack_iff]
      simp

/-- The newer manifest is announced, and then the older one again. -/
def replay : List AnnounceCall :=
  [⟨.direct newerManifest none, .ok ()⟩,
    ⟨.service (.ok (.obj olderManifest)), .ok ()⟩]

private theorem replay_writes :
    replay.filterMap (AnnounceCall.writes manifestTable.platform) =
      [(nodeKey, ((text "2026-02-01T00:00:00Z" : Text) : WithBot Text)),
        (nodeKey, ((text "2026-01-01T00:00:00Z" : Text) : WithBot Text))] := by
  decide +kernel

/-- The older manifest replaces the newer one. -/
theorem replayed_manifest_rolls_back :
    ¬ NeverRollsBack manifestTable.platform (.ok none) replay := by
  have fresh : loadRaw (.ok none) = .ok [] := rfl
  rw [neverRollsBack_writes replay fresh, replay_writes]
  rintro ⟨_, notOlder, _⟩
  rw [Function.update_self, WithBot.coe_le_coe] at notOlder
  exact absurd notOlder (by decide)

end SovereignInference.SipDiscovery
