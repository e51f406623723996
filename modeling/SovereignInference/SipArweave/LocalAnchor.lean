import SovereignInference.Python.Json
import SovereignInference.Python.PosixPath
import SovereignInference.Python.Sha256

/-!
# Content-addressed files

A `LocalAnchor` keeps bytes in files named by their SHA-256 digests, below a
root directory.  Reading a URI follows whatever stands after the scheme.
-/

namespace SovereignInference.SipArweave

open Python

/-- An `AnchorError` with its message, or another exception. -/
inductive AnchorExc where
  | anchorError (message : Text)
  | raised (error : PyExc)
  deriving DecidableEq

/-- How far a write gets: to its end, not to opening the file, or to some
bytes. -/
inductive Write where
  | finished
  | unopened
  | cut (count : Nat)
  deriving DecidableEq

/-- What an opened file holds after the write. -/
def Write.leaves (data : Bytes) : Write → Option Bytes
  | .finished => some data
  | .unopened => none
  | .cut count => some (data.take count)

def hexDigest (data : Bytes) : Text := hex (sha256 data)

namespace LocalAnchor

def scheme : Text := "local"

/-- `LocalAnchor(root)` -/
def init (tree : FileTree) (root : Place) : Except PyExc FileTree :=
  tree.mkdir root

/-- The URI or an exception, unless the write is cut short, and the files
that are left. -/
def put (tree : FileTree) (root : Place) (data : Bytes) (write : Write) :
    Option (Except PyExc Text) × FileTree :=
  let digest := hexDigest data
  let uri := scheme ++ "://" ++ digest
  if tree.pathExists root digest then (some (.ok uri), tree)
  else
    match write.leaves data with
    | none => (none, tree)
    | some content =>
        match tree.writeBytes root digest content with
        | .ok tree => (if write = .finished then some (.ok uri) else none, tree)
        | .error error => (some (.error error), tree)

section

variable (isPrintable : CodePoint → Bool)

def splitUri (uri expectedScheme : Text) : Except AnchorExc Text :=
  let (scheme, sep, rest) := partitionText "://" uri
  if sep = [] ∨ scheme ≠ expectedScheme then
    .error (.anchorError ("expected a " ++ expectedScheme ++
      "://" ++ " URI, got " ++ Json.strRepr isPrintable uri))
  else if rest = [] then
    .error (.anchorError ("empty " ++ expectedScheme ++ ":// URI"))
  else .ok rest

def get (tree : FileTree) (root : Place) (uri : Text) :
    Except AnchorExc Bytes := do
  let digest ← splitUri isPrintable uri scheme
  match tree.readBytes root digest with
  | .ok content => .ok content
  | .error .osError =>
      throw (.anchorError ("no local object for " ++ Json.strRepr isPrintable uri))
  | .error error => throw (.raised error)

end

structure PutCall where
  data : Bytes
  write : Write

def PutCall.run (root : Place) (tree : FileTree) (call : PutCall) : FileTree :=
  (put tree root call.data call.write).2

def runPuts (tree : FileTree) (root : Place) (calls : List PutCall) :
    FileTree :=
  calls.foldl (PutCall.run root) tree

/-- The bytes of the first write under a digest that opened its file. -/
def firstWritten (calls : List PutCall) (digest : Text) : Option Bytes :=
  calls.findSome? fun call =>
    if hexDigest call.data = digest then call.write.leaves call.data else none

section

variable (isPrintable : CodePoint → Bool)

/-- `get` raises an `AnchorError`, or it gives the bytes that the URI names by
their digest, from a file below the root. -/
def Addressed (tree : FileTree) (root : Place) (uri : Text) : Prop :=
  match get isPrintable tree root uri with
  | .ok content => uri = scheme ++ text "://" ++ hexDigest content ∧
      ∀ digest, splitUri isPrintable uri scheme = .ok digest →
        ∀ place, tree.locate root digest = .ok (some place) → root <+: place
  | .error (.anchorError _) => True
  | .error (.raised _) => False

/-- A `put` of the data that is not cut short gives a URI, from which `get`
gives the data. -/
def GivesBack (tree : FileTree) (root : Place) (data : Bytes) : Prop :=
  ∃ uri, (put tree root data .finished).1 = some (.ok uri) ∧
    get isPrintable (put tree root data .finished).2 root uri = .ok data

end

/-- What a URI has to name for its reader to be safe: a path that the system
takes, and then a digest under which nothing but such data was first written,
or a path to no file. -/
def Safe (tree : FileTree) (root : Place) (calls : List PutCall)
    (named : Text) : Prop :=
  (∀ c ∈ named, FsEncodable c ∧ c ≠ 0) ∧
    if 0x2F ∈ named then
      ∀ place, tree.locate root named = .ok (some place) →
        ∀ content, tree.node place ≠ some (.file content)
    else ∀ content, firstWritten calls named = some content →
      hexDigest content = named

theorem splitUri_eq_ok {isPrintable : CodePoint → Bool} {uri named : Text} :
    splitUri isPrintable uri scheme = .ok named ↔
      named ≠ [] ∧ uri = scheme ++ text "://" ++ named := by
  have absent : (0x3A : CodePoint) ∉ scheme := by decide +kernel
  have separator : text "://" = 0x3A :: [0x2F, 0x2F] := by decide +kernel
  unfold splitUri
  constructor
  · intro split
    dsimp only at split
    split_ifs at split with foreign empty
    cases split
    obtain ⟨found, same⟩ := not_or.mp foreign
    obtain ⟨isSeparator, whole⟩ := partitionText_found found
    rw [not_not.mp same] at whole
    exact ⟨empty, whole⟩
  · rintro ⟨some, rfl⟩
    rw [separator, partitionText_append absent]
    simp [some]

theorem hex_mem {bytes : Bytes} {c : CodePoint} (member : c ∈ hex bytes) :
    0x30 ≤ c.val ∧ c.val ≤ 0x66 := by
  obtain ⟨byte, _, digit⟩ := List.mem_flatMap.mp member
  have small := byte.toNat_lt
  have digits : ∀ {value : Nat}, value < 16 →
      0x30 ≤ (hexDigit value).val ∧ (hexDigit value).val ≤ 0x66 := by
    intro value below
    unfold hexDigit
    split_ifs with decimal
    · show 0x30 ≤ (0x30 + value) % 0x110000 ∧ (0x30 + value) % 0x110000 ≤ 0x66
      omega
    · show 0x30 ≤ (0x57 + value) % 0x110000 ∧ (0x57 + value) % 0x110000 ≤ 0x66
      omega
  rcases List.mem_pair.mp digit with rfl | rfl
  · exact digits (by omega)
  · exact digits (by omega)

theorem hexDigest_ne_nil (data : Bytes) : hexDigest data ≠ [] := by
  have length := length_sha256 data
  obtain ⟨first, rest, split⟩ :=
    List.exists_cons_of_length_pos (by omega : 0 < (sha256 data).length)
  unfold hexDigest hex
  rw [split]
  exact List.cons_ne_nil _ _

/-- The file name of the data. -/
def fileName (data : Bytes) : Bytes :=
  (hexDigest data).map fun c => .ofNat c.val

theorem fsEncode_hexDigest (data : Bytes) :
    fsEncode (hexDigest data) = .ok (fileName data) :=
  fsEncode_plain fun c member => by
    have bounds := hex_mem member
    omega

theorem not_mem_hexDigest {data : Bytes} {c : CodePoint} (low : c.val < 0x30) :
    c ∉ hexDigest data := by
  intro member
  have bounds := hex_mem member
  omega

/-- A digest is not the name of another string's file. -/
theorem fileName_eq {data : Bytes} {named : Text} {name : Bytes}
    (encoded : fsEncode named = .ok name) :
    fileName data = name ↔ hexDigest data = named := by
  constructor
  · rintro rfl
    refine (fsEncode_plain_inj ?_ (encoded.trans
      (fsEncode_hexDigest data).symm)).symm
    intro c member
    have bounds := hex_mem member
    omega
  · rintro rfl
    rw [fsEncode_hexDigest] at encoded
    exact Except.ok.inj encoded

theorem locate_hexDigest {tree : FileTree} {root : Place}
    (isDir : tree.node root = some .dir) (data : Bytes) :
    tree.locate root (hexDigest data) = .ok (some (root ++ [fileName data])) :=
  FileTree.locate_name isDir (not_mem_hexDigest (by decide))
    (not_mem_hexDigest (by decide)) (fsEncode_hexDigest data)
    (hexDigest_ne_nil data)
    (by
      intro point
      exact @not_mem_hexDigest data 0x2E (by decide)
        (point ▸ by decide +kernel))
    (by
      intro points
      exact @not_mem_hexDigest data 0x2E (by decide)
        (points ▸ by decide +kernel))

section

variable {tree : FileTree} {root : Place} (isDir : tree.node root = some .dir)

include isDir

/-- **One call**: the file of the data, unless there is one. -/
theorem node_put (data : Bytes) (write : Write) (place : Place) :
    (put tree root data write).2.node place =
      if place = root ++ [fileName data] ∧ tree.node place = none then
        (write.leaves data).map .file
      else tree.node place := by
  have located := locate_hexDigest isDir data
  unfold put
  simp only
  rw [FileTree.pathExists_of_locate located]
  cases held : tree.node (root ++ [fileName data]) with
  | some node =>
      rw [if_pos Option.isSome_some, if_neg]
      rintro ⟨rfl, free⟩
      rw [held] at free
      cases free
  | none =>
      rw [if_neg (by simp)]
      cases write.leaves data with
      | none =>
          show tree.node place = _
          by_cases here : place = root ++ [fileName data] ∧
              tree.node place = none
          · rw [if_pos here, here.2]
            rfl
          · rw [if_neg here]
      | some content =>
          simp only
          rw [FileTree.writeBytes_of_locate located
            (by rwa [List.dropLast_concat]) (by simp [held])]
          show Function.update tree.node _ _ place = _
          by_cases here : place = root ++ [fileName data]
          · subst here
            rw [Function.update_self, if_pos ⟨rfl, held⟩]
            rfl
          · rw [Function.update_of_ne here, if_neg fun both => here both.1]

theorem node_put_root (data : Bytes) (write : Write) :
    (put tree root data write).2.node root = some .dir := by
  rw [node_put isDir, if_neg, isDir]
  rintro ⟨longer, _⟩
  simp at longer

end

/-- **A run of calls** leaves each file as the first write that opened it. -/
theorem node_runPuts {tree : FileTree} {root : Place}
    (isDir : tree.node root = some .dir) (calls : List PutCall) :
    (runPuts tree root calls).node root = some .dir ∧
      ∀ {named : Text} {name : Bytes}, fsEncode named = .ok name →
        (runPuts tree root calls).node (root ++ [name]) =
          (tree.node (root ++ [name])).or
            ((firstWritten calls named).map .file) := by
  induction calls generalizing tree with
  | nil => exact ⟨isDir, fun _ => (Option.or_none).symm⟩
  | cons call rest induction =>
      obtain ⟨stays, files⟩ := induction (node_put_root isDir call.data call.write)
      refine ⟨stays, ?_⟩
      intro named name encoded
      have later := files encoded
      rw [node_put isDir] at later
      refine later.trans ?_
      unfold firstWritten
      rw [List.findSome?_cons]
      by_cases same : hexDigest call.data = named
      · have isName := (fileName_eq encoded).mpr same
        rw [isName, if_pos same]
        cases held : tree.node (root ++ [name]) with
        | some node => simp
        | none =>
            rw [if_pos ⟨rfl, rfl⟩]
            cases call.write.leaves call.data <;> simp
      · have otherName := mt (fileName_eq encoded).mp same
        rw [if_neg same, if_neg]
        rintro ⟨equal, _⟩
        simp [Ne.symm otherName] at equal

theorem init_node {before tree : FileTree} {root : Place}
    (started : init before root = .ok tree) :
    tree.node root = some .dir ∧
      ∀ name, tree.node (root ++ [name]) = before.node (root ++ [name]) := by
  unfold init FileTree.mkdir at started
  split_ifs at started
  cases started
  refine ⟨if_pos List.prefix_rfl, fun name => if_neg ?_⟩
  intro longer
  simpa using longer.length_le

section

variable (isPrintable : CodePoint → Bool) {tree : FileTree} {root : Place}

theorem get_of_splitUri {uri named : Text}
    (split : splitUri isPrintable uri scheme = .ok named) :
    get isPrintable tree root uri =
      match tree.readBytes root named with
      | .ok content => .ok content
      | .error .osError => .error
          (.anchorError ("no local object for " ++
            Json.strRepr isPrintable uri))
      | .error error => .error (.raised error) := by
  unfold get
  rw [split]
  rfl

theorem get_eq_ok {uri named : Text} {content : Bytes}
    (split : splitUri isPrintable uri scheme = .ok named) :
    get isPrintable tree root uri = .ok content ↔
      tree.readBytes root named = .ok content := by
  rw [get_of_splitUri isPrintable split]
  cases tree.readBytes root named with
  | ok stored => simp
  | error error => cases error <;> simp

theorem splitUri_error {uri : Text} {error : AnchorExc}
    (refused : splitUri isPrintable uri scheme = .error error) :
    ∃ message, error = .anchorError message := by
  unfold splitUri at refused
  dsimp only at refused
  split_ifs at refused
  · cases refused
    exact ⟨_, rfl⟩
  · cases refused
    exact ⟨_, rfl⟩

/-- A URI is safe if the file that its path leads to, if any, is the one that
it names. -/
theorem addressed_iff_file {uri named : Text}
    (split : splitUri isPrintable uri scheme = .ok named) :
    Addressed isPrintable tree root uri ↔
      (∀ c ∈ named, FsEncodable c ∧ c ≠ 0) ∧
        ∀ place content, tree.locate root named = .ok (some place) →
          tree.node place = some (.file content) →
            hexDigest content = named ∧ root <+: place := by
  obtain ⟨_, spelled⟩ := splitUri_eq_ok.mp split
  unfold Addressed
  rw [get_of_splitUri isPrintable split]
  cases read : tree.readBytes root named with
  | ok content =>
      obtain ⟨place, located, held⟩ := FileTree.readBytes_eq_ok.mp read
      have accepted := FileTree.locate_isOk.mp ⟨_, located⟩
      constructor
      · rintro ⟨named', inside⟩
        refine ⟨accepted, ?_⟩
        intro place' content' located' held'
        rw [located] at located'
        cases located'
        rw [held] at held'
        cases held'
        rw [spelled, List.append_cancel_left_eq] at named'
        exact ⟨named'.symm, inside named split place located⟩
      · rintro ⟨_, safe⟩
        obtain ⟨digest, inside⟩ := safe place content located held
        refine ⟨by rw [digest, spelled], ?_⟩
        intro named' split' place' located'
        rw [split] at split'
        cases split'
        rw [located] at located'
        cases located'
        exact inside
  | error error =>
      have failure := FileTree.readBytes_error read
      by_cases missing : error = .osError
      · subst missing
        refine iff_of_true trivial ⟨failure.mp rfl, ?_⟩
        intro place content located held
        rw [FileTree.readBytes_eq_ok.mpr ⟨place, located, held⟩] at read
        cases read
      · have refused := mt failure.mpr missing
        refine iff_of_false ?_ fun safe => refused safe.1
        intro addressed
        cases error with
        | osError => exact missing rfl
        | _ => exact addressed

end

/-- No digest has a point. -/
theorem firstWritten_point {calls : List PutCall} {named : Text}
    (point : 0x2E ∈ named) : firstWritten calls named = none := by
  unfold firstWritten
  rw [List.findSome?_eq_none_iff]
  intro call _
  rw [if_neg]
  intro same
  exact not_mem_hexDigest (by decide) (same ▸ point)

section

variable (isPrintable : CodePoint → Bool) {before tree : FileTree}
  {root : Place} (started : init before root = .ok tree)
  (unused : ∀ name, before.node (root ++ [name]) = none)

include started unused

/-- What is below the root after a run. -/
theorem node_run (calls : List PutCall) :
    (runPuts tree root calls).node root = some .dir ∧
      ∀ {named : Text} {name : Bytes}, fsEncode named = .ok name →
        (runPuts tree root calls).node (root ++ [name]) =
          (firstWritten calls named).map .file := by
  obtain ⟨isDir, same⟩ := init_node started
  obtain ⟨stays, files⟩ := node_runPuts isDir calls
  refine ⟨stays, ?_⟩
  intro named name encoded
  rw [files encoded, same, unused, Option.none_or]

/-- A path without a slash leads to the file of a digest, or to no file. -/
theorem safe_iff_file (calls : List PutCall) {named : Text}
    (some : named ≠ []) :
    Safe (runPuts tree root calls) root calls named ↔
      (∀ c ∈ named, FsEncodable c ∧ c ≠ 0) ∧
        ∀ place content,
          (runPuts tree root calls).locate root named = .ok (.some place) →
            (runPuts tree root calls).node place = .some (.file content) →
              hexDigest content = named ∧ root <+: place := by
  obtain ⟨isDir, files⟩ := node_run started unused calls
  generalize runPuts tree root calls = after at isDir files ⊢
  refine and_congr_right fun accepted => ?_
  split_ifs with slash
  · -- a digest has no slash
    constructor
    · intro nothing place content located held
      exact absurd held (nothing place located content)
    · intro safe place located content held
      exact not_mem_hexDigest (by decide)
        ((safe place content located held).1 ▸ slash)
  · have null : 0 ∉ named := fun member => (accepted 0 member).2 rfl
    obtain ⟨name, encoded⟩ := (fsEncode_isOk named).mpr fun c member =>
      (accepted c member).1
    by_cases points : named = text "." ∨ named = text ".."
    · have point : 0x2E ∈ named := by
        rcases points with rfl | rfl
        · decide +kernel
        · decide +kernel
      have failed :=
        FileTree.readBytes_points isDir slash null encoded points
      refine iff_of_true ?_ ?_
      · intro content written
        rw [firstWritten_point point] at written
        cases written
      · intro place content located held
        rw [FileTree.readBytes_eq_ok.mpr ⟨place, located, held⟩] at failed
        cases failed
    · obtain ⟨single, double⟩ := not_or.mp points
      have found := FileTree.locate_name isDir slash null encoded some single
        double
      constructor
      · intro safe place content located held
        rw [found] at located
        cases located
        rw [files encoded] at held
        obtain ⟨written, first, same⟩ := Option.map_eq_some_iff.mp held
        cases same
        exact ⟨safe content first, List.prefix_append _ _⟩
      · intro safe content written
        refine (safe _ content found ?_).1
        rw [files encoded, written]
        rfl

theorem givesBack_iff (calls : List PutCall) (data : Bytes) :
    GivesBack isPrintable (runPuts tree root calls) root data ↔
      ∀ content, firstWritten calls (hexDigest data) = some content →
        content = data := by
  obtain ⟨isDir, files⟩ := node_run started unused calls
  generalize runPuts tree root calls = after at isDir files ⊢
  have held := files (fsEncode_hexDigest data)
  have stays := node_put_root isDir data .finished
  have written := node_put isDir data .finished (root ++ [fileName data])
  have located := locate_hexDigest isDir data
  have returned : (put after root data .finished).1 =
      some (.ok (scheme ++ text "://" ++ hexDigest data)) := by
    unfold put
    simp only
    rw [FileTree.pathExists_of_locate located]
    cases found : after.node (root ++ [fileName data]) with
    | some node => rfl
    | none =>
        rw [if_neg (by simp)]
        simp only [Write.leaves]
        rw [FileTree.writeBytes_of_locate located
          (by rwa [List.dropLast_concat]) (by simp [found])]
        rfl
  have split : splitUri isPrintable
      (scheme ++ text "://" ++ hexDigest data) scheme =
        .ok (hexDigest data) :=
    splitUri_eq_ok.mpr ⟨hexDigest_ne_nil data, rfl⟩
  have read : GivesBack isPrintable after root data ↔
      (put after root data .finished).2.node (root ++ [fileName data]) =
        some (.file data) := by
    unfold GivesBack
    simp only [returned, Option.some.injEq, Except.ok.injEq,
      exists_eq_left', get_eq_ok isPrintable split, FileTree.readBytes_eq_ok,
      locate_hexDigest stays]
  rw [read, written, held]
  cases firstWritten calls (hexDigest data) with
  | none => simp [Write.leaves]
  | some content => simp

/-- **The exact safety of an anchor.**  After any run of `put` calls, reading a
URI is safe exactly if what it names is, and data comes back exactly if the
first write under its digest, where there was one, wrote that data. -/
theorem addressed_iff_safe (calls : List PutCall) :
    (∀ uri, Addressed isPrintable (runPuts tree root calls) root uri ↔
      ∀ named, named ≠ [] → uri = scheme ++ text "://" ++ named →
        Safe (runPuts tree root calls) root calls named) ∧
    ∀ data, GivesBack isPrintable (runPuts tree root calls) root data ↔
      ∀ content, firstWritten calls (hexDigest data) = some content →
        content = data := by
  refine ⟨?_, givesBack_iff isPrintable started unused calls⟩
  intro uri
  cases split : splitUri isPrintable uri scheme with
  | error error =>
      obtain ⟨message, rfl⟩ := splitUri_error isPrintable split
      have raised : get isPrintable (runPuts tree root calls) root uri =
          .error (.anchorError message) := by
        unfold get
        rw [split]
        rfl
      refine iff_of_true ?_ ?_
      · unfold Addressed
        rw [raised]
        trivial
      · intro named some spelled
        rw [splitUri_eq_ok.mpr ⟨some, spelled⟩] at split
        cases split
  | ok named =>
      obtain ⟨some, spelled⟩ := splitUri_eq_ok.mp split
      rw [addressed_iff_file isPrintable split,
        ← safe_iff_file started unused calls some]
      constructor
      · intro safe other _ spelled'
        rw [spelled, List.append_cancel_left_eq] at spelled'
        exact spelled' ▸ safe
      · intro each
        exact each named some spelled

end

/-- Writes that all get to their end leave what their digests name. -/
theorem firstWritten_of_finished {calls : List PutCall}
    (finished : ∀ call ∈ calls, call.write = .finished) {named : Text}
    {content : Bytes} (written : firstWritten calls named = some content) :
    hexDigest content = named ∧ ∃ call ∈ calls, call.data = content := by
  obtain ⟨call, member, held⟩ := List.exists_of_findSome?_eq_some written
  split_ifs at held with same
  · rw [finished call member] at held
    cases held
    exact ⟨same, call, member, rfl⟩

/-- **Without cut writes**, every name that is a single part is safe, and data
whose digest no other data had comes back. -/
theorem addressed_of_finished (isPrintable : CodePoint → Bool)
    {before tree : FileTree} {root : Place}
    (started : init before root = .ok tree)
    (unused : ∀ name, before.node (root ++ [name]) = none)
    {calls : List PutCall} (finished : ∀ call ∈ calls, call.write = .finished) :
    (∀ named, named ≠ [] → 0x2F ∉ named →
      (∀ c ∈ named, FsEncodable c ∧ c ≠ 0) →
        Addressed isPrintable (runPuts tree root calls) root
          (scheme ++ text "://" ++ named)) ∧
    ∀ data, (∀ call ∈ calls, hexDigest call.data = hexDigest data →
      call.data = data) →
        GivesBack isPrintable (runPuts tree root calls) root data := by
  constructor
  · intro named some slash accepted
    rw [addressed_iff_file isPrintable (splitUri_eq_ok.mpr ⟨some, rfl⟩),
      ← safe_iff_file started unused calls some]
    refine ⟨accepted, ?_⟩
    rw [if_neg slash]
    intro content written
    exact (firstWritten_of_finished finished written).1
  · intro data unshared
    rw [givesBack_iff isPrintable started unused]
    intro content written
    obtain ⟨same, call, member, rfl⟩ :=
      firstWritten_of_finished finished written
    exact unshared call member same

/-- A directory for an anchor beside another file. -/
def besideKey : FileTree where
  node
    | [] => some .dir
    | [name] => if name = ascii "key" then some (.file (ascii "k")) else none
    | _ => none
  top := rfl
  inner := by
    intro place name present
    rcases place with _ | ⟨first, _ | ⟨second, rest⟩⟩
    · rfl
    · exact absurd rfl present
    · exact absurd rfl present

theorem not_addressed {isPrintable : CodePoint → Bool} {tree : FileTree}
    {root : Place} {uri : Text} {content : Bytes}
    (read : get isPrintable tree root uri = .ok content)
    (other : uri ≠ scheme ++ text "://" ++ hexDigest content) :
    ¬ Addressed isPrintable tree root uri := by
  intro addressed
  unfold Addressed at addressed
  rw [read] at addressed
  exact other addressed.1

private theorem not_addressed_of_raised {isPrintable : CodePoint → Bool}
    {tree : FileTree} {root : Place} {uri : Text} {error : PyExc}
    (raised : get isPrintable tree root uri = .error (.raised error)) :
    ¬ Addressed isPrintable tree root uri := by
  intro addressed
  unfold Addressed at addressed
  rw [raised] at addressed
  exact addressed

/-- A write of `b"abc"` that is cut short is kept when it is retried; a path
leads out of the root; and a null character is another error. -/
theorem cut_write_stays : ∃ tree,
    init besideKey [ascii "anchor"] = .ok tree ∧
    (∀ name, besideKey.node ([ascii "anchor"] ++ [name]) = none) ∧
    (¬ Addressed (fun _ => true) (runPuts tree [ascii "anchor"]
        [⟨ascii "abc", .cut 0⟩, ⟨ascii "abc", .finished⟩]) [ascii "anchor"]
      ("local://ba7816bf8f01cfea414140de5dae2223b00361a396177a9cb410ff61f20015ad"
        : String)) ∧
    ¬ GivesBack (fun _ => true) (runPuts tree [ascii "anchor"]
      [⟨ascii "abc", .cut 0⟩, ⟨ascii "abc", .finished⟩]) [ascii "anchor"]
      (ascii "abc") ∧
    (¬ Addressed (fun _ => true) tree [ascii "anchor"] "local://../key") ∧
    ¬ Addressed (fun _ => true) tree [ascii "anchor"]
      (text "local://" ++ [0]) := by
  have unused : ∀ name, besideKey.node ([ascii "anchor"] ++ [name]) = none :=
    fun _ => rfl
  refine ⟨_, rfl, unused, ?_, ?_, ?_, ?_⟩
  · exact @not_addressed _ _ _ _ [] (by decide +kernel) (by decide +kernel)
  · rw [givesBack_iff _ rfl unused]
    intro back
    exact absurd (back [] (by decide +kernel)) (by decide)
  · exact @not_addressed _ _ _ _ (ascii "k") (by decide +kernel)
      (by decide +kernel)
  · exact @not_addressed_of_raised _ _ _ _ .valueError (by decide +kernel)

theorem addressed_iff_safe_abc : ∃ tree,
    init besideKey [ascii "anchor"] = .ok tree ∧
    (∀ name, besideKey.node ([ascii "anchor"] ++ [name]) = none) ∧
    Addressed (fun _ => true)
      (runPuts tree [ascii "anchor"] [⟨ascii "abc", .finished⟩])
      [ascii "anchor"] (scheme ++ text "://" ++ hexDigest (ascii "abc")) ∧
    GivesBack (fun _ => true)
      (runPuts tree [ascii "anchor"] [⟨ascii "abc", .finished⟩])
      [ascii "anchor"] (ascii "abc") := by
  have unused : ∀ name, besideKey.node ([ascii "anchor"] ++ [name]) = none :=
    fun _ => rfl
  have accepted := FileTree.locate_isOk.mp
    ⟨_, locate_hexDigest besideKey.top (ascii "abc")⟩
  refine ⟨_, rfl, unused, ?_, ?_⟩
  · rw [(addressed_iff_safe _ rfl unused _).1]
    intro named _ spelled
    rw [List.append_cancel_left_eq] at spelled
    subst spelled
    refine ⟨accepted, ?_⟩
    rw [if_neg (by decide +kernel)]
    intro content written
    cases written.symm.trans (by decide +kernel : _ = some (ascii "abc"))
    rfl
  · rw [(addressed_iff_safe _ rfl unused _).2]
    intro content written
    cases written.symm.trans (by decide +kernel : _ = some (ascii "abc"))
    rfl

end LocalAnchor

end SovereignInference.SipArweave
