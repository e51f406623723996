import SovereignInference.SipArweave.Helpers
import SovereignInference.SipDiscovery.Service

/-!
# A directory of anchored manifests

A manifest is announced by anchoring it, and discovery resolves whatever URIs
its query gives.  Over a local anchor this finds the freshest announced
manifest of each provider key, and nothing that was not announced.
-/

namespace SovereignInference.SipDiscovery

open Python Python.Json Effects SipProtocol SipArweave

/-- A `DiscoveryError` with its message, or an exception of the anchor. -/
inductive PublishError where
  | refused (message : Text)
  | anchor (error : AnchorExc)

def PublishError.ofAnnounce : AnnounceError → PublishError
  | .refused message => .refused message
  | .raised error => .anchor (.raised error)

section

variable (P : Platform) {σ : Type} (anchor : Anchor σ) (state : σ)

/-- `",".join(str(m) for m in manifest.get("models", []))` -/
def modelsTag (manifest : Dict) : Except PyExc Text := do
  let models ← ((manifest.find "models").getD (.arr [])).iterate
  return List.intercalate [0x2C] (← models.mapM (Json.toStr P.isPrintable))

/-- The tags of a manifest that may be announced. -/
def announcementTags (manifest : Dict) (baseUrl : Option Text) :
    Except AnnounceError Dict := do
  let pubkey ← announcedKey P manifest baseUrl
  let models ← (modelsTag P manifest).mapError .raised
  return [("App-Name", .str "SIP-AI"), ("Type", .str "provider-manifest"),
    ("Provider", .str pubkey), ("Models", .str models)]

/-- `ArweaveDirectory.announce` -/
def announceAnchored (manifest : Dict) (baseUrl : Option Text) :
    Except PublishError Text × σ :=
  match announcementTags P manifest baseUrl with
  | .error error => (.error (.ofAnnounce error), state)
  | .ok tags =>
      let (answer, state) := anchorJson anchor state manifest tags
      (answer.mapError .anchor, state)

variable (codecs : Codecs) (depth : Nat)

/-- The anchor in the state in which its objects are read. -/
def readerAt : AnchorReader := ⟨anchor.get state, codecs, depth⟩

/-- A call of `announce`. -/
structure Publication where
  manifest : Dict
  baseUrl : Option Text
  distinct : (Json.obj manifest).DistinctKeys

def publishAll (publications : List Publication) : σ :=
  publications.foldl (fun state publication =>
    (announceAnchored P anchor state publication.manifest
      publication.baseUrl).2) state

/-- The call of the anchor that a publication makes, if it is not refused. -/
def Publication.anchoring (publication : Publication) : Option AnchorCall :=
  match announcementTags P publication.manifest publication.baseUrl with
  | .error _ => none
  | .ok tags =>
      some ⟨.json, publication.manifest, tags, publication.distinct⟩

end

variable {P : Platform} {σ : Type} {anchor : Anchor σ} {state : σ}
  {publication : Publication} {publications : List Publication}
  {call : AnchorCall}

private theorem anchoring_state (publication : Publication) (state : σ) :
    (announceAnchored P anchor state publication.manifest
        publication.baseUrl).2 =
      (publication.anchoring P).elim state fun call =>
        (call.run P anchor state).2 := by
  unfold announceAnchored Publication.anchoring
  cases announcementTags P publication.manifest publication.baseUrl with
  | error error => rfl
  | ok tags => rfl

/-- Publishing anchors what is not refused. -/
theorem publishAll_eq (publications : List Publication) (state : σ) :
    publishAll P anchor state publications =
      runAnchors P anchor state
        (publications.filterMap (Publication.anchoring P)) := by
  induction publications generalizing state with
  | nil => rfl
  | cons publication rest induction =>
      change publishAll P anchor (announceAnchored P anchor state
        publication.manifest publication.baseUrl).2 rest = _
      rw [induction, anchoring_state]
      cases accepted : publication.anchoring P with
      | none => rw [List.filterMap_cons_none accepted]; rfl
      | some call => rw [List.filterMap_cons_some accepted]; rfl

theorem anchoring_some (accepted : publication.anchoring P = some call) :
    call.kind = .json ∧ call.document = publication.manifest ∧
      ∃ pubkey, announcedKey P publication.manifest publication.baseUrl =
        .ok pubkey := by
  unfold Publication.anchoring at accepted
  cases tagged : announcementTags P publication.manifest
      publication.baseUrl with
  | error error =>
      rw [tagged] at accepted
      cases accepted
  | ok tags =>
      rw [tagged] at accepted
      cases accepted
      unfold announcementTags at tagged
      obtain ⟨pubkey, key, _⟩ := bind_eq_ok.mp tagged
      exact ⟨rfl, rfl, pubkey, key⟩

/-- The manifest is anchored at the URI. -/
structure PublishedAt (P : Platform) (publications : List Publication)
    (uri : Text) (manifest : Dict) : Prop where
  published : ∃ publication ∈ publications, ∃ call data,
    publication.anchoring P = some call ∧
      canonicalJson (.obj publication.manifest) = .ok data ∧
      uri = LocalAnchor.scheme ++ text "://" ++ hexDigest data ∧
      manifest = publication.manifest.sorted

/-- The manifest was announced, whatever its URI. -/
def WasPublished (P : Platform) (publications : List Publication)
    (manifest : Dict) : Prop :=
  ∃ publication ∈ publications, (publication.anchoring P).isSome ∧
    manifest = publication.manifest.sorted

/-- The URI names an object of a local anchor. -/
def NamesObject (uri : Text) : Prop :=
  ∃ named, uri = LocalAnchor.scheme ++ text "://" ++ named ∧ named ≠ [] ∧
    0x2F ∉ named

variable {before tree : FileTree} {root : Place} {codecs : Codecs}
  {depth : Nat} {model : Option Text} {uri : Text} {manifest : Dict}

theorem WasPublished.verified (sound : P.SchemaSound)
    (published : WasPublished P publications manifest) :
    verifyProviderManifest P manifest = .ok true := by
  obtain ⟨publication, _, accepted, rfl⟩ := published
  obtain ⟨call, accepted⟩ := Option.isSome_iff_exists.mp accepted
  obtain ⟨_, _, pubkey, key⟩ := anchoring_some accepted
  have distinct := publication.distinct.sorted
  have same := sameMembers_sorted publication.distinct
  rw [Dict.sorted_obj] at distinct same
  exact Verifier.accepts_reordered sound .providerManifest
    publication.distinct distinct same (announcedKey_ok sound key).1

/-- What a local anchor raises is caught. -/
theorem localAnchor_caught {error : PyExc}
    (raised : (LocalAnchor.anchor P.isPrintable root).get tree uri =
      .error (.raised error)) :
    error.isValueError ∨ error = .osError := by
  change LocalAnchor.get P.isPrintable tree root uri = _ at raised
  unfold LocalAnchor.get at raised
  cases split : LocalAnchor.splitUri P.isPrintable uri LocalAnchor.scheme with
  | error error' =>
      obtain ⟨message, rfl⟩ :=
        LocalAnchor.splitUri_error P.isPrintable split
      rw [split] at raised
      cases raised
  | ok digest =>
      rw [split, ok_bind] at raised
      cases read : tree.readBytes root digest with
      | ok content =>
          rw [read] at raised
          cases raised
      | error error' =>
          have same : error' = error ∨ error' = .osError := by
            rw [read] at raised
            cases error' <;> simp_all
          rcases same with rfl | rfl
          · unfold FileTree.readBytes FileTree.locate at read
            cases named : pathNames digest with
            | error error'' =>
                rw [named] at read
                cases read
                exact .inl (pathNames_error named)
            | ok names =>
                rw [named, ok_bind, pure_eq_ok, ok_bind] at read
                split at read
                · cases read
                · cases read
                  exact .inr rfl
          · rw [read] at raised
            cases raised

section

variable (held : Held P root (publications.filterMap
    (Publication.anchoring P)) tree)
  (shallow : ∀ publication ∈ publications,
    nesting (.obj publication.manifest) ≤ depth)

include held shallow

/-- A published manifest is resolved. -/
theorem resolve_published
    (apart : DigestsApart (publications.filterMap
      (Publication.anchoring P)))
    (published : PublishedAt P publications uri manifest) :
    (readerAt (LocalAnchor.anchor P.isPrintable root) tree codecs
      depth).resolve uri = .ok (some manifest) := by
  obtain ⟨publication, member, call, data, accepted, written, rfl, rfl⟩ :=
    published
  obtain ⟨isJson, isManifest, _⟩ := anchoring_some accepted
  have isCall : call ∈ publications.filterMap (Publication.anchoring P) :=
    List.mem_filterMap.mpr ⟨publication, member, accepted⟩
  have written' : canonicalJson (.obj call.document) = .ok data := by
    rwa [isManifest]
  have put : Put P (publications.filterMap (Publication.anchoring P)) data := by
    rcases call.run_cases (P := P) with ⟨data', isData, vouched, stores⟩ |
      ⟨error, raises⟩
    · rw [written'] at isData
      cases isData
      exact ⟨call, isCall, written', vouched, stores⟩
    · have runs := raises (⟨fun _ _ _ _ => (.ok [], true), fun _ _ =>
        .ok []⟩ : Anchor Bool) false
      unfold AnchorCall.run at runs
      rw [isJson] at runs
      dsimp only [anchorJson] at runs
      rw [written'] at runs
      cases runs
  have got := held.get_put apart put
  have got' : (LocalAnchor.anchor P.isPrintable root).get tree
    (LocalAnchor.scheme ++ text "://" ++ hexDigest data) = .ok data := got
  have clean := (dumpBytes_isOk true (.obj publication.manifest)).mp
    ⟨data, written⟩
  obtain ⟨data', again, loaded⟩ := loadsBytes_canonicalJson codecs
    publication.distinct clean (shallow publication member)
  rw [written] at again
  cases again
  unfold AnchorReader.resolve readerAt
  dsimp only
  rw [got']
  dsimp only
  rw [loaded, Dict.sorted_obj]
  rfl

/-- What is resolved of an object was published. -/
theorem resolve_object (names : NamesObject uri) :
    (readerAt (LocalAnchor.anchor P.isPrintable root) tree codecs
        depth).resolve uri = .ok none ∨
      ∃ manifest, WasPublished P publications manifest ∧
        (readerAt (LocalAnchor.anchor P.isPrintable root) tree codecs
          depth).resolve uri = .ok (some manifest) := by
  obtain ⟨named, rfl, nonempty, slash⟩ := names
  unfold AnchorReader.resolve readerAt
  dsimp only
  cases got : (LocalAnchor.anchor P.isPrintable root).get tree
      (LocalAnchor.scheme ++ text "://" ++ named) with
  | error error =>
      refine .inl ?_
      cases error with
      | anchorError message => rfl
      | raised error => exact if_pos (localAnchor_caught got)
  | ok data =>
      obtain ⟨call, isCall, written, _⟩ :=
        (held.put_get nonempty slash got).canonical
      obtain ⟨publication, member, accepted⟩ := List.mem_filterMap.mp isCall
      obtain ⟨_, isManifest, _⟩ := anchoring_some accepted
      rw [isManifest] at written
      have clean := (dumpBytes_isOk true (.obj publication.manifest)).mp
        ⟨data, written⟩
      obtain ⟨data', again, loaded⟩ := loadsBytes_canonicalJson codecs
        publication.distinct clean (shallow publication member)
      rw [written] at again
      cases again
      refine .inr ⟨publication.manifest.sorted, ⟨publication, member,
        by rw [accepted]; rfl, rfl⟩, ?_⟩
      dsimp only
      rw [loaded, Dict.sorted_obj]
      rfl

end

/-- The answer to a publication is where it is found. -/
theorem announceAnchored_cases (isDir : tree.node root = some .dir)
    (member : publication ∈ publications) :
    let published := announceAnchored P
      (LocalAnchor.anchor P.isPrintable root) tree publication.manifest
      publication.baseUrl
    (∃ error, published = (.error error, tree)) ∨
      ∃ uri, published.1 = .ok uri ∧
        PublishedAt P publications uri publication.manifest.sorted := by
  intro published
  cases tagged : announcementTags P publication.manifest
      publication.baseUrl with
  | error error =>
      refine .inl ⟨.ofAnnounce error, ?_⟩
      change announceAnchored _ _ _ _ _ = _
      unfold announceAnchored
      rw [tagged]
  | ok tags =>
      have accepted : publication.anchoring P =
          some ⟨.json, publication.manifest, tags, publication.distinct⟩ := by
        unfold Publication.anchoring
        rw [tagged]
      have publishes : published =
          (let (answer, state) := anchorJson
            (LocalAnchor.anchor P.isPrintable root) tree
            publication.manifest tags
          (answer.mapError .anchor, state)) := by
        change announceAnchored _ _ _ _ _ = _
        unfold announceAnchored
        rw [tagged]
      unfold anchorJson at publishes
      cases written : canonicalJson (.obj publication.manifest) with
      | error error =>
          rw [written] at publishes
          exact .inl ⟨_, publishes⟩
      | ok data =>
          rw [written] at publishes
          have answers := put_answers (P := P) isDir data "application/json"
            tags
          refine .inr ⟨_, ?_, ⟨publication, member, _, data, accepted, written,
            rfl, rfl⟩⟩
          rw [publishes]
          dsimp only
          rw [answers]
          rfl

/-- **The anchored directory.**  Publishing raises and anchors nothing, or
returns where the manifest is found.  Whatever objects of the anchor a query
names, discovery returns a freshest manifest of each provider key among those
that were published there, and none that was not published. -/
theorem anchored_directory_sound (sound : P.SchemaSound)
    (started : LocalAnchor.init before root = .ok tree)
    (unused : ∀ name, before.node (root ++ [name]) = none)
    (codecs : Codecs) (publications : List Publication)
    (shallow : ∀ publication ∈ publications,
      nesting (.obj publication.manifest) ≤ depth)
    (apart : DigestsApart (publications.filterMap (Publication.anchoring P)))
    (model : Option Text) :
    let anchor := LocalAnchor.anchor P.isPrintable root
    (∀ earlier publication later,
      publications = earlier ++ publication :: later →
        let state := publishAll P anchor tree earlier
        let published := announceAnchored P anchor state publication.manifest
          publication.baseUrl
        (∃ error, published = (.error error, state)) ∨
          ∃ uri, published.1 = .ok uri ∧
            PublishedAt P publications uri publication.manifest.sorted) ∧
    ∀ uris, (∀ uri ∈ uris, NamesObject uri) → ∃ manifests found,
      (Directory.arweave (some (.ok uris)) (readerAt anchor
          (publishAll P anchor tree publications) codecs depth)).discover P
            model = .ok found ∧
        SoundDiscovery P manifests model found ∧
        (∀ manifest, some manifest ∈ manifests →
          WasPublished P publications manifest) ∧
        ∀ uri ∈ uris, ∀ manifest, PublishedAt P publications uri manifest →
          some manifest ∈ manifests := by
  intro anchor
  have fresh : Held P root [] tree := held_init started unused
  constructor
  · rintro earlier publication later rfl
    have held := fresh.run (earlier.filterMap (Publication.anchoring P))
    rw [← publishAll_eq] at held
    exact announceAnchored_cases held.isDir
      (List.mem_append_right _ List.mem_cons_self)
  · intro uris names
    have held := fresh.run (publications.filterMap (Publication.anchoring P))
    rw [← publishAll_eq, List.nil_append] at held
    let reader := readerAt anchor (publishAll P anchor tree publications)
      codecs depth
    let resolve := reader.resolve
    let listed := fun uri => (resolve uri).toOption.join
    have resolves : ∀ uri ∈ uris, resolve uri = .ok (listed uri) := by
      intro uri member
      rcases @resolve_object _ _ _ root codecs depth uri held shallow
          (names uri member) with nothing | ⟨manifest, _, something⟩
      · change resolve uri = _ at nothing
        simp only [listed, nothing]
        rfl
      · change resolve uri = _ at something
        simp only [listed, something]
        rfl
    have published : ∀ manifest, some manifest ∈ uris.map listed →
        WasPublished P publications manifest := by
      intro manifest member
      obtain ⟨uri, inUris, isListed⟩ := List.mem_map.mp member
      rcases @resolve_object _ _ _ root codecs depth uri held shallow
          (names uri inUris) with nothing | ⟨other, wasPublished, something⟩
      · change resolve uri = _ at nothing
        simp only [listed, nothing] at isListed
        cases isListed
      · change resolve uri = _ at something
        simp only [listed, something] at isListed
        cases isListed
        exact wasPublished
    have lists : (AnyDirectory.remote
        (.arweave (some (.ok uris)) reader)).manifests =
          .ok (uris.map listed) := by
      rw [manifests_eq_ok, List.map_map]
      exact congrArg Except.ok (List.map_congr_left resolves)
    obtain ⟨found, discovers, discovery⟩ :=
      @discover_sound P _ model sound _ lists fun manifest member =>
        ⟨true, (published manifest member).verified sound⟩
    refine ⟨uris.map listed, found, discovers, discovery, published, ?_⟩
    intro uri member manifest isPublished
    have found := @resolve_published _ _ _ root codecs depth uri
      manifest held shallow apart isPublished
    change resolve uri = _ at found
    refine List.mem_map.mpr ⟨uri, member, ?_⟩
    simp only [listed, found]
    rfl

/-- The newer manifest is published and found. -/
theorem anchored_directory_newer : ∃ tree uri found provider,
    LocalAnchor.init LocalAnchor.besideKey [ascii "anchor"] = .ok tree ∧
      let anchor := LocalAnchor.anchor manifestTable.platform.isPrintable
        [ascii "anchor"]
      let published := announceAnchored manifestTable.platform anchor tree
        newerManifest none
      published.1 = .ok uri ∧
        (Directory.arweave (some (.ok [uri])) (readerAt anchor published.2
          ⟨fun _ => decodeUtf8, fun _ _ => id⟩ 2)).discover
            manifestTable.platform (some "n") = .ok found ∧
        provider ∈ found ∧ provider.pubkey = nodeKey := by
  obtain ⟨tree, started⟩ : ∃ tree, LocalAnchor.init LocalAnchor.besideKey
    [ascii "anchor"] = .ok tree := ⟨_, rfl⟩
  obtain ⟨distinct, shallow, clean, accepted⟩ :
      (Json.obj newerManifest).DistinctKeys ∧
        nesting (.obj newerManifest) ≤ 2 ∧ (Json.obj newerManifest).Clean ∧
        (announcementTags manifestTable.platform newerManifest
          none).toOption.isSome = true := by
    decide +kernel
  obtain ⟨verified, named, located, serves⟩ :
      verifyProviderManifest manifestTable.platform newerManifest.sorted =
          .ok true ∧
        newerManifest.sorted.get "provider_pubkey" = .str nodeKey ∧
        newerManifest.sorted.get "manifest_uri" =
          .str "https://node.example" ∧
        DiscoveredProvider.lists "n" ⟨[], newerManifest.sorted⟩ = true := by
    refine ⟨by decide +kernel, rfl, rfl, by decide +kernel⟩
  obtain ⟨data, written⟩ := (dumpBytes_isOk true _).mpr clean
  have sound := @anchored_directory_sound manifestTable.platform
    LocalAnchor.besideKey tree [ascii "anchor"] 2
    manifestTable.platform_schemaSound started (fun _ => rfl)
    ⟨fun _ => decodeUtf8, fun _ _ => id⟩ [⟨newerManifest, none, distinct⟩]
    (List.forall_mem_singleton.mpr shallow) (by
      intro call isCall other isOther data' data'' written' written'' _
      obtain ⟨publication, member, anchoring⟩ := List.mem_filterMap.mp isCall
      obtain ⟨publication', member', anchoring'⟩ :=
        List.mem_filterMap.mp isOther
      rw [(anchoring_some anchoring).2.1,
        List.mem_singleton.mp member] at written'
      rw [(anchoring_some anchoring').2.1, List.mem_singleton.mp member',
        written'] at written''
      exact Except.ok.inj written'') (some "n")
  rcases sound.1 [] _ [] rfl with ⟨error, refused⟩ | ⟨uri, answered, isAt⟩
  · obtain ⟨tags, tagged⟩ : ∃ tags, announcementTags manifestTable.platform
        newerManifest none = .ok tags := by
      cases tagged : announcementTags manifestTable.platform newerManifest
          none with
      | error error =>
          rw [tagged] at accepted
          cases accepted
      | ok tags => exact ⟨tags, rfl⟩
    have answers := put_answers (P := manifestTable.platform)
      (LocalAnchor.init_node started).1 data "application/json" tags
    have answered := congrArg Prod.fst refused
    change (announceAnchored manifestTable.platform _ tree newerManifest
      none).1 = _ at answered
    unfold announceAnchored anchorJson at answered
    have written' : canonicalJson (.obj newerManifest) = .ok data := written
    rw [tagged] at answered
    dsimp only at answered
    rw [written'] at answered
    dsimp only at answered
    rw [answers] at answered
    cases answered
  · have names : NamesObject uri := by
      obtain ⟨_, _, _, data', _, _, rfl, _⟩ := isAt
      exact ⟨_, rfl, LocalAnchor.hexDigest_ne_nil data',
        LocalAnchor.not_mem_hexDigest (by decide)⟩
    obtain ⟨manifests, found, discovers, discovery, _, lists⟩ :=
      sound.2 [uri] (List.forall_mem_singleton.mpr names)
    have eligible : Eligible manifestTable.platform manifests (some "n")
        ⟨"https://node.example", newerManifest.sorted⟩ :=
      ⟨lists uri (List.mem_singleton_self _) _ isAt, verified, located,
        List.cons_ne_nil _ _, by rintro wanted ⟨⟩; exact serves⟩
    obtain ⟨provider, isFound, sameKey⟩ :=
      discovery.represented _ eligible
    refine ⟨tree, uri, found, provider, started, answered, discovers, isFound,
      sameKey.trans ?_⟩
    unfold DiscoveredProvider.pubkey
    rw [named]
    rfl

end SovereignInference.SipDiscovery
