import SovereignInference.SipArweave.LocalAnchor
import SovereignInference.SipProtocol.Reordering

/-!
# Anchored artifacts

Documents are anchored in their canonical JSON, receipts and provider manifests
only if they verify.  What is resolved of an anchor is a document that was
anchored, with its members in the order of their keys, and it still verifies.
-/

namespace SovereignInference.SipArweave

open Python Python.Json Effects SipProtocol

/-- What an `Anchor` does to its store. -/
structure Anchor (σ : Type) where
  put : σ → Bytes → (contentType : Text) → (tags : Dict) →
    Except AnchorExc Text × σ
  get : σ → Text → Except AnchorExc Bytes

/-- A `LocalAnchor` whose writes are not cut short. -/
def LocalAnchor.anchor (isPrintable : CodePoint → Bool) (root : Place) :
    Anchor FileTree where
  put := fun tree data _ _ =>
    let (answer, tree) := LocalAnchor.put tree root data .finished
    -- a finished write always answers
    (match answer with
      | some (.ok uri) => .ok uri
      | some (.error error) => .error (.raised error)
      | none => .error (.raised .osError), tree)
  get := fun tree uri => LocalAnchor.get isPrintable tree root uri

section

variable (P : Platform) {σ : Type} (anchor : Anchor σ) (state : σ)

def anchorJson (obj tags : Dict) : Except AnchorExc Text × σ :=
  match canonicalJson (.obj obj) with
  | .ok data => anchor.put state data "application/json" tags
  | .error error => (.error (.raised error), state)

/-- `json.loads` of bytes, where a `ValueError` is caught. -/
def resolveJson (codecs : Codecs) (depth : Nat) (uri : Text) :
    Except AnchorExc Dict := do
  let raw ← anchor.get state uri
  let shown := Json.strRepr P.isPrintable uri
  match loadsBytes codecs depth raw with
  | some (.ok (.obj fields)) => return fields
  | some (.ok _) => throw (.anchorError
      (text "anchored object at " ++ shown ++ text " is not a JSON object"))
  | some (.error .recursionError) => throw (.raised .recursionError)
  | _ => throw (.anchorError
      (text "anchored object at " ++ shown ++ text " is not valid JSON"))

/-- `{"SIP-AI": version, **tags}` -/
def mergedTags (version : Json) (tags : Dict) : Dict :=
  tags.foldl (fun merged tag => merged.set tag.1 tag.2) [("SIP-AI", version)]

def anchorReceipt (receipt tags : Dict) : Except AnchorExc Text × σ :=
  match verifyReceipt P receipt with
  | .error error => (.error (.raised error), state)
  | .ok result =>
      if result.valid then
        let version := (receipt.find "receipt_version").getD
          (.str "sip-ai.receipt.v1")
        anchorJson anchor state receipt (mergedTags version tags)
      else
        (.error (.anchorError "refusing to anchor an invalid receipt"), state)

def providerManifestSchema : Text := "sip-ai.provider_manifest.v1"

def anchorManifest (manifest tags : Dict) : Except AnchorExc Text × σ :=
  let verified : Except PyExc Bool :=
    if (manifest.get "schema").isStr providerManifestSchema then
      verifyProviderManifest P manifest
    else .ok true
  match verified with
  | .error error => (.error (.raised error), state)
  | .ok false => (.error (.anchorError
      "refusing to anchor an invalid provider manifest"), state)
  | .ok true =>
      match toStr P.isPrintable
          ((manifest.find "schema").getD (.str "sip-ai.manifest")) with
      | .error error => (.error (.raised error), state)
      | .ok version =>
          anchorJson anchor state manifest (mergedTags (.str version) tags)

end

inductive AnchorKind where
  | json
  | receipt
  | manifest
  deriving DecidableEq

/-- A call of one of the helpers that anchor. -/
structure AnchorCall where
  kind : AnchorKind
  document : Dict
  tags : Dict
  distinct : (Json.obj document).DistinctKeys

section

variable (P : Platform) {σ : Type} (anchor : Anchor σ)

def AnchorCall.run (call : AnchorCall) (state : σ) :
    Except AnchorExc Text × σ :=
  match call.kind with
  | .json => anchorJson anchor state call.document call.tags
  | .receipt => anchorReceipt P anchor state call.document call.tags
  | .manifest => anchorManifest P anchor state call.document call.tags

def runAnchors (state : σ) (calls : List AnchorCall) : σ :=
  calls.foldl (fun state call => (call.run P anchor state).2) state

/-- The document is a receipt or a provider manifest that verifies, or it was
anchored as it is. -/
def AnchorCall.Vouched (call : AnchorCall) (document : Dict) : Prop :=
  match call.kind with
  | .json => True
  | .receipt => Verifier.receipt.run P document = .ok true
  | .manifest =>
      document.get "schema" = .str providerManifestSchema →
        Verifier.providerManifest.run P document = .ok true

/-- The helper puts these bytes, into whatever anchor. -/
def AnchorCall.Stores (call : AnchorCall) (data : Bytes) : Prop :=
  ∃ tags, ∀ {σ : Type} (anchor : Anchor σ) (state : σ),
    call.run P anchor state = anchor.put state data "application/json" tags

end

variable {P : Platform}

private theorem accepts_receipt {receipt : Dict} {result : VerificationResult}
    (verified : verifyReceipt P receipt = .ok result)
    (valid : result.valid = true) :
    Verifier.receipt.run P receipt = .ok true := by
  show (do return (← verifyReceipt P receipt).valid : Except PyExc Bool) = _
  rw [verified]
  exact congrArg Except.ok valid

/-- **A helper puts the canonical JSON** of a document that is vouched for, or
it raises and puts nothing. -/
theorem AnchorCall.run_cases (call : AnchorCall) :
    (∃ data, canonicalJson (.obj call.document) = .ok data ∧
        call.Vouched P call.document ∧ call.Stores P data) ∨
      ∃ error, ∀ {σ : Type} (anchor : Anchor σ) (state : σ),
        call.run P anchor state = (.error error, state) := by
  have puts : ∀ tags, (call.Vouched P call.document ∧
      ∀ {σ : Type} (anchor : Anchor σ) (state : σ), call.run P anchor state =
        anchorJson anchor state call.document tags) →
      (∃ data, canonicalJson (.obj call.document) = .ok data ∧
          call.Vouched P call.document ∧ call.Stores P data) ∨
        ∃ error, ∀ {σ : Type} (anchor : Anchor σ) (state : σ),
          call.run P anchor state = (.error error, state) := by
    intro tags isJson
    obtain ⟨vouched, runs⟩ := isJson
    cases written : canonicalJson (.obj call.document) with
    | error error =>
        refine .inr ⟨.raised error, fun anchor state => ?_⟩
        rw [runs]
        unfold anchorJson
        rw [written]
    | ok data =>
        refine .inl ⟨data, rfl, vouched, tags, fun anchor state => ?_⟩
        rw [runs]
        unfold anchorJson
        rw [written]
  obtain ⟨kind, document, tags, distinct⟩ := call
  cases kind with
  | json => exact puts tags ⟨trivial, fun _ _ => rfl⟩
  | receipt =>
      cases verified : verifyReceipt P document with
      | error error =>
          refine .inr ⟨.raised error, fun anchor state => ?_⟩
          show anchorReceipt P anchor state document tags = _
          unfold anchorReceipt
          rw [verified]
      | ok result =>
          cases valid : result.valid with
          | false =>
              refine .inr ⟨.anchorError
                "refusing to anchor an invalid receipt",
                  fun anchor state => ?_⟩
              show anchorReceipt P anchor state document tags = _
              unfold anchorReceipt
              rw [verified]
              dsimp only
              rw [valid, if_neg Bool.false_ne_true]
          | true =>
              let version := (document.find "receipt_version").getD
                (.str "sip-ai.receipt.v1")
              refine puts (mergedTags version tags)
                ⟨accepts_receipt verified valid, fun anchor state => ?_⟩
              show anchorReceipt P anchor state document tags = _
              unfold anchorReceipt
              rw [verified]
              dsimp only
              rw [valid, if_pos rfl]
  | manifest =>
      have named : document.get "schema" = .str providerManifestSchema ↔
          (document.get "schema").isStr providerManifestSchema = true := by
        cases document.get "schema" <;> simp [Json.isStr]
      cases verified : (if (document.get "schema").isStr
          providerManifestSchema then verifyProviderManifest P document
          else .ok true : Except PyExc Bool) with
      | error error =>
          refine .inr ⟨.raised error, fun anchor state => ?_⟩
          show anchorManifest P anchor state document tags = _
          unfold anchorManifest
          simp only [verified]
      | ok accepted =>
          cases accepted with
          | false =>
              refine .inr ⟨.anchorError
                "refusing to anchor an invalid provider manifest",
                  fun anchor state => ?_⟩
              show anchorManifest P anchor state document tags = _
              unfold anchorManifest
              simp only [verified]
          | true =>
              cases version : toStr P.isPrintable
                  ((document.find "schema").getD
                    (.str "sip-ai.manifest")) with
              | error error =>
                  refine .inr ⟨.raised error, fun anchor state => ?_⟩
                  show anchorManifest P anchor state document tags = _
                  unfold anchorManifest
                  simp only [verified, version]
              | ok version' =>
                  refine puts (mergedTags (.str version') tags)
                    ⟨?_, fun anchor state => ?_⟩
                  · intro isProvider
                    rw [if_pos (named.mp isProvider)] at verified
                    exact verified
                  · show anchorManifest P anchor state document tags = _
                    unfold anchorManifest
                    simp only [verified, version]

section

variable (P) (root : Place) (calls : List AnchorCall)

/-- The call put these bytes. -/
def Put (data : Bytes) : Prop :=
  ∃ call ∈ calls, canonicalJson (.obj call.document) = .ok data ∧
    call.Vouched P call.document ∧ call.Stores P data

/-- What a run leaves below the root: a file for every put, named by its
digest, and no other. -/
structure Held (tree : FileTree) : Prop where
  isDir : tree.node root = some .dir
  files : ∀ name node, tree.node (root ++ [name]) = some node →
    ∃ data, Put P calls data ∧ name = LocalAnchor.fileName data ∧
      node = .file data
  kept : ∀ data, Put P calls data →
    tree.node (root ++ [LocalAnchor.fileName data]) ≠ none

end

section

variable {root : Place} {tree : FileTree} {calls : List AnchorCall}

/-- A put returns the URI that names its file. -/
theorem put_answers (isDir : tree.node root = some .dir) (data : Bytes)
    (contentType : Text) (tags : Dict) :
    ((LocalAnchor.anchor P.isPrintable root).put tree data contentType
        tags).1 =
      .ok (LocalAnchor.scheme ++ text "://" ++ hexDigest data) := by
  have located := LocalAnchor.locate_hexDigest isDir data
  unfold LocalAnchor.anchor LocalAnchor.put
  simp only [FileTree.pathExists_of_locate located, Write.leaves]
  cases free : tree.node (root ++ [LocalAnchor.fileName data]) with
  | some node => rfl
  | none =>
      rw [if_neg (by simp), FileTree.writeBytes_of_locate located
        (by rwa [List.dropLast_concat]) (by simp [free])]
      rfl

/-- A helper does not both put and raise. -/
theorem AnchorCall.Stores.not_raises {call : AnchorCall} {data : Bytes}
    (stores : call.Stores P data) {error : AnchorExc}
    (raises : ∀ {σ : Type} (anchor : Anchor σ) (state : σ),
      call.run P anchor state = (.error error, state)) : False := by
  obtain ⟨tags, runs⟩ := stores
  let marking : Anchor Bool :=
    ⟨fun _ _ _ _ => (.ok [], true), fun _ _ => .ok []⟩
  have same := (runs marking false).symm.trans (raises marking false)
  cases same

private theorem put_append {data : Bytes} {call : AnchorCall} :
    Put P (calls ++ [call]) data ↔ Put P calls data ∨ Put P [call] data := by
  unfold Put
  simp only [List.mem_append, or_and_right, exists_or]

/-- **One call** keeps what the run leaves. -/
theorem Held.step (held : Held P root calls tree) (call : AnchorCall) :
    Held P root (calls ++ [call])
      (call.run P (LocalAnchor.anchor P.isPrintable root) tree).2 := by
  rcases call.run_cases (P := P) with ⟨data, written, vouched, stores⟩ |
    ⟨error, raises⟩
  · have here : Put P [call] data :=
      ⟨call, List.mem_singleton_self _, written, vouched, stores⟩
    have only : ∀ data', Put P [call] data' → data' = data := by
      rintro data' ⟨other, isCall, written', _⟩
      rw [List.mem_singleton.mp isCall, written] at written'
      exact (Except.ok.inj written').symm
    obtain ⟨tags, runs⟩ := stores
    rw [runs]
    change Held P root _ (LocalAnchor.put tree root data .finished).2
    have node := LocalAnchor.node_put held.isDir data .finished
    refine ⟨LocalAnchor.node_put_root held.isDir data .finished, ?_, ?_⟩
    · intro name content found
      rw [node] at found
      split_ifs at found with isNew
      · cases found
        exact ⟨data, put_append.mpr (.inr here), by simpa using isNew.1, rfl⟩
      · obtain ⟨data', put, rest⟩ := held.files name content found
        exact ⟨data', put_append.mpr (.inl put), rest⟩
    · intro data' put
      rw [node]
      split_ifs with isNew
      · nofun
      · rcases put_append.mp put with earlier | last
        · exact held.kept data' earlier
        · rw [only data' last] at isNew ⊢
          exact fun missing => isNew ⟨rfl, missing⟩
  · rw [raises]
    have none : ∀ data', ¬ Put P [call] data' := by
      rintro data' ⟨other, isCall, _, _, stores⟩
      rw [List.mem_singleton.mp isCall] at stores
      exact stores.not_raises raises
    refine ⟨held.isDir, ?_, ?_⟩
    · intro name content found
      obtain ⟨data, put, rest⟩ := held.files name content found
      exact ⟨data, put_append.mpr (.inl put), rest⟩
    · intro data put
      exact held.kept data ((put_append.mp put).resolve_right (none data))

/-- **A run of calls** leaves a file for every put. -/
theorem Held.run (held : Held P root calls tree) (later : List AnchorCall) :
    Held P root (calls ++ later) (runAnchors P
      (LocalAnchor.anchor P.isPrintable root) tree later) := by
  induction later generalizing calls tree with
  | nil => rwa [List.append_nil]
  | cons call rest induction =>
      have more := induction (held.step call)
      rwa [List.append_assoc] at more

theorem held_init {before : FileTree}
    (started : LocalAnchor.init before root = .ok tree)
    (unused : ∀ name, before.node (root ++ [name]) = none) :
    Held P root [] tree := by
  obtain ⟨isDir, same⟩ := LocalAnchor.init_node started
  refine ⟨isDir, ?_, ?_⟩
  · intro name node found
    rw [same, unused] at found
    cases found
  · rintro data ⟨_, member, _⟩
    cases member

/-- A vouched document read back is vouched for. -/
theorem AnchorCall.Vouched.sorted (sound : P.SchemaSound) {call : AnchorCall}
    (vouched : call.Vouched P call.document) :
    call.Vouched P call.document.sorted := by
  have distinct' := call.distinct.sorted
  have same := sameMembers_sorted call.distinct
  rw [Dict.sorted_obj] at distinct' same
  unfold AnchorCall.Vouched at vouched ⊢
  cases kind : call.kind with
  | json => trivial
  | receipt =>
      rw [kind] at vouched
      exact Verifier.accepts_reordered sound .receipt call.distinct distinct'
        same vouched
  | manifest =>
      rw [kind] at vouched
      intro isProvider
      exact Verifier.accepts_reordered sound .providerManifest call.distinct
        distinct' same (vouched (get_sameMembers same.symm isProvider))

theorem Put.canonical {data : Bytes} (put : Put P calls data) :
    ∃ call ∈ calls, canonicalJson (.obj call.document) = .ok data ∧
      call.Vouched P call.document := by
  obtain ⟨call, member, written, vouched, _⟩ := put
  exact ⟨call, member, written, vouched⟩

/-- No two documents of the calls have different texts with one digest. -/
def DigestsApart (calls : List AnchorCall) : Prop :=
  ∀ call ∈ calls, ∀ other ∈ calls, ∀ data data',
    canonicalJson (.obj call.document) = .ok data →
      canonicalJson (.obj other.document) = .ok data' →
        hexDigest data = hexDigest data' → data = data'

/-- What was put is got back. -/
theorem Held.get_put (held : Held P root calls tree)
    (apart : DigestsApart calls) {data : Bytes} (put : Put P calls data) :
    LocalAnchor.get P.isPrintable tree root
      (LocalAnchor.scheme ++ text "://" ++ hexDigest data) = .ok data := by
  obtain ⟨node, found⟩ := Option.ne_none_iff_exists'.mp (held.kept data put)
  obtain ⟨data', put', sameName, rfl⟩ := held.files _ node found
  have sameDigest := (LocalAnchor.fileName_eq
    (LocalAnchor.fsEncode_hexDigest data')).mp sameName
  obtain ⟨call, member, written, _⟩ := put.canonical
  obtain ⟨other, member', written', _⟩ := put'.canonical
  obtain rfl := apart call member other member' data data' written written'
    sameDigest
  have split := (@LocalAnchor.splitUri_eq_ok P.isPrintable _ _).mpr
    ⟨LocalAnchor.hexDigest_ne_nil data, rfl⟩
  rw [LocalAnchor.get_eq_ok P.isPrintable split]
  exact FileTree.readBytes_eq_ok.mpr
    ⟨_, LocalAnchor.locate_hexDigest held.isDir data, found⟩

/-- What is got was put. -/
theorem Held.put_get (held : Held P root calls tree) {named : Text}
    {content : Bytes} (nonempty : named ≠ []) (slash : 0x2F ∉ named)
    (got : LocalAnchor.get P.isPrintable tree root
      (LocalAnchor.scheme ++ text "://" ++ named) = .ok content) :
    Put P calls content := by
  have split := (@LocalAnchor.splitUri_eq_ok P.isPrintable _ _).mpr
    ⟨nonempty, rfl⟩
  rw [LocalAnchor.get_eq_ok P.isPrintable split] at got
  obtain ⟨place, located, found⟩ := FileTree.readBytes_eq_ok.mp got
  have accepted := FileTree.locate_isOk.mp ⟨_, located⟩
  have null : 0 ∉ named := fun member => (accepted 0 member).2 rfl
  obtain ⟨name, encoded⟩ := (fsEncode_isOk named).mpr fun c member =>
    (accepted c member).1
  by_cases points : named = text "." ∨ named = text ".."
  · rw [FileTree.readBytes_points held.isDir slash null encoded points] at got
    cases got
  · obtain ⟨single, double⟩ := not_or.mp points
    rw [FileTree.locate_name held.isDir slash null encoded nonempty single
      double] at located
    cases located
    obtain ⟨data, put, _, same⟩ := held.files name _ found
    cases same
    exact put

/-- The canonical JSON of a document resolves to the document. -/
theorem resolveJson_canonical (codecs : Codecs) {depth : Nat} {uri : Text}
    {data : Bytes} {document : Dict}
    (got : LocalAnchor.get P.isPrintable tree root uri = .ok data)
    (distinct : (Json.obj document).DistinctKeys)
    (written : canonicalJson (.obj document) = .ok data)
    (shallow : nesting (.obj document) ≤ depth) :
    resolveJson P (LocalAnchor.anchor P.isPrintable root) tree codecs depth
      uri = .ok document.sorted := by
  have clean := (dumpBytes_isOk true (.obj document)).mp ⟨data, written⟩
  obtain ⟨bytes, written', read⟩ :=
    loadsBytes_canonicalJson codecs distinct clean shallow
  rw [written] at written'
  cases written'
  have got' : (LocalAnchor.anchor P.isPrintable root).get tree uri =
    .ok data := got
  unfold resolveJson
  rw [got', ok_bind, read, Dict.sorted_obj]
  rfl

end

/-- **Anchored documents resolve.**  In any run of the helpers over a fresh
`LocalAnchor`, each call raises and leaves the files as they are, or it returns
a URI that resolves, after the run, to the document it was given.  Every name
that resolves gives a document that a call was given.  Receipts and provider
manifests among them verify. -/
theorem anchored_documents_resolve {P : Platform} (sound : P.SchemaSound)
    {before tree : FileTree} {root : Place}
    (started : LocalAnchor.init before root = .ok tree)
    (unused : ∀ name, before.node (root ++ [name]) = none)
    (codecs : Codecs) (depth : Nat) (calls : List AnchorCall)
    (shallow : ∀ call ∈ calls, nesting (.obj call.document) ≤ depth)
    (apart : DigestsApart calls) :
    let anchor := LocalAnchor.anchor P.isPrintable root
    let final := runAnchors P anchor tree calls
    (∀ earlier call later, calls = earlier ++ call :: later →
      let state := runAnchors P anchor tree earlier
      (∃ error, call.run P anchor state = (.error error, state)) ∨
        ∃ uri document, (call.run P anchor state).1 = .ok uri ∧
          resolveJson P anchor final codecs depth uri = .ok document ∧
          SameMembers (.obj call.document) (.obj document) ∧
          call.Vouched P document) ∧
    ∀ named document, named ≠ [] → 0x2F ∉ named →
      resolveJson P anchor final codecs depth
          (LocalAnchor.scheme ++ text "://" ++ named) = .ok document →
        ∃ call ∈ calls, SameMembers (.obj call.document) (.obj document) ∧
          call.Vouched P document := by
  intro anchor final
  have fresh : Held P root [] tree := held_init started unused
  have held : Held P root calls final := fresh.run calls
  have resolves : ∀ call ∈ calls, ∀ data uri,
      canonicalJson (.obj call.document) = .ok data →
        LocalAnchor.get P.isPrintable final root uri = .ok data →
          resolveJson P anchor final codecs depth uri =
            .ok call.document.sorted := by
    intro call member data uri written got
    exact resolveJson_canonical codecs got call.distinct written
      (shallow call member)
  have same : ∀ call : AnchorCall, SameMembers (.obj call.document)
      (.obj call.document.sorted) := by
    intro call
    rw [← Dict.sorted_obj]
    exact sameMembers_sorted call.distinct
  constructor
  · rintro earlier call later rfl
    have member : call ∈ earlier ++ call :: later :=
      List.mem_append_right _ List.mem_cons_self
    rcases call.run_cases (P := P) with ⟨data, written, vouched, stores⟩ |
      ⟨error, raises⟩
    · have put : Put P (earlier ++ call :: later) data :=
        ⟨call, member, written, vouched, stores⟩
      obtain ⟨tags, runs⟩ := stores
      refine .inr ⟨_, call.document.sorted, ?_,
        resolves call member data _ written (held.get_put apart put),
        same call, vouched.sorted sound⟩
      rw [runs]
      exact put_answers (fresh.run earlier).isDir data _ tags
    · exact .inl ⟨error, raises _ _⟩
  · intro named document nonempty slash resolved
    cases got : LocalAnchor.get P.isPrintable final root
        (LocalAnchor.scheme ++ text "://" ++ named) with
    | error error =>
        have got' : anchor.get final
          (LocalAnchor.scheme ++ text "://" ++ named) = .error error := got
        unfold resolveJson at resolved
        rw [got'] at resolved
        cases resolved
    | ok data =>
        obtain ⟨call, member, written, vouched⟩ :=
          (held.put_get nonempty slash got).canonical
        rw [resolves call member data _ written got] at resolved
        cases resolved
        exact ⟨call, member, same call, vouched.sorted sound⟩

/-- Any document that can be written is anchored as it is. -/
theorem run_json {P : Platform} {σ : Type} {anchor : Anchor σ} {state : σ}
    {document tags : Dict} (distinct : (Json.obj document).DistinctKeys)
    {data : Bytes} (written : canonicalJson (.obj document) = .ok data) :
    AnchorCall.run P anchor ⟨.json, document, tags, distinct⟩ state =
      anchor.put state data "application/json" tags := by
  unfold AnchorCall.run anchorJson
  dsimp only
  rw [written]

/-- An anchored attestation. -/
def attestedCall : AnchorCall where
  kind := .json
  document := attested
  tags := []
  distinct := attested_distinct

theorem anchored_attestation_resolves : ∃ tree,
    LocalAnchor.init LocalAnchor.besideKey [ascii "anchor"] = .ok tree ∧
    let anchor := LocalAnchor.anchor attestedTable.platform.isPrintable
      [ascii "anchor"]
    ∃ uri document, (attestedCall.run attestedTable.platform anchor tree).1 =
        .ok uri ∧
      resolveJson attestedTable.platform anchor
        (runAnchors attestedTable.platform anchor tree [attestedCall])
        ⟨fun _ => decodeUtf8, fun _ _ => id⟩ 1 uri = .ok document ∧
      SameMembers (.obj attested) (.obj document) := by
  obtain ⟨tree, started⟩ : ∃ tree, LocalAnchor.init LocalAnchor.besideKey
    [ascii "anchor"] = .ok tree := ⟨_, rfl⟩
  refine ⟨tree, started, ?_⟩
  have resolves := anchored_documents_resolve
    attestedTable.platform_schemaSound started (fun _ => rfl)
    ⟨fun _ => decodeUtf8, fun _ _ => id⟩ 1 [attestedCall]
    (List.forall_mem_singleton.mpr (by decide +kernel)) (by
      intro call isCall other isOther data data' written written' _
      rw [List.mem_singleton.mp isCall] at written
      rw [List.mem_singleton.mp isOther, written] at written'
      exact Except.ok.inj written')
  rcases resolves.1 [] attestedCall [] rfl with ⟨error, raised⟩ |
    ⟨uri, document, answered, resolved, same, _⟩
  · obtain ⟨data, written⟩ := (dumpBytes_isOk true _).mpr attested_clean
    have runs := @run_json attestedTable.platform _
      (LocalAnchor.anchor attestedTable.platform.isPrintable [ascii "anchor"])
      tree attested [] attested_distinct data written
    have answers := put_answers (P := attestedTable.platform)
      (LocalAnchor.init_node started).1 data "application/json" []
    rw [← runs] at answers
    exact absurd (answers.symm.trans (congrArg Prod.fst raised)) nofun
  · exact ⟨uri, document, answered, resolved, same⟩

end SovereignInference.SipArweave
