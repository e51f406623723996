import SovereignInference.Python.Text
import Mathlib.Data.List.Infix

/-!
# Paths and files

A path string is split into parts as `pathlib` does, and the system walks the
parts through a tree of directories and files.  Names are bytes, and there are
no symbolic links.
-/

namespace Python

open Effects

/-- The bytes of a character of a path.  The low surrogates from U+DC80 stand
for bytes that are not UTF-8. -/
def fsEncodeChar (c : CodePoint) : Except PyExc Bytes :=
  if 0xDC80 ≤ c.val ∧ c.val ≤ 0xDCFF then .ok [.ofNat (c.val - 0xDC00)]
  else encodeChar c

def fsEncode (s : Text) : Except PyExc Bytes := do
  return (← s.mapM fsEncodeChar).flatten

/-- Characters that a path may have. -/
def FsEncodable (c : CodePoint) : Prop :=
  isSurrogate c = true → 0xDC80 ≤ c.val ∧ c.val ≤ 0xDCFF

instance (c : CodePoint) : Decidable (FsEncodable c) :=
  inferInstanceAs (Decidable (_ → _))

/-- The parts of a path after its root. -/
def pathParts (s : Text) : List Text :=
  (s.splitOn 0x2F).filter fun part => part ≠ [] ∧ part ≠ [0x2E]

def isAbsolutePath (s : Text) : Bool := s.head? == some 0x2F

/-- The names that the system is given. -/
def pathNames (s : Text) : Except PyExc (List Bytes) := do
  let names ← (pathParts s).mapM fsEncode
  if 0 ∈ names.flatten then throw .valueError
  return names

theorem fsEncodeChar_plain {c : CodePoint} (plain : c.val < 0x80) :
    fsEncodeChar c = .ok [.ofNat c.val] := by
  have whole : isSurrogate c = false := by
    simp only [isSurrogate, Bool.and_eq_false_iff, decide_eq_false_iff_not]
    omega
  unfold fsEncodeChar encodeChar
  rw [if_neg (by omega), whole, if_neg Bool.false_ne_true, if_pos plain]

/-- Other characters have no plain byte. -/
theorem fsEncodeChar_high {c : CodePoint} (high : 0x80 ≤ c.val)
    {bytes : Bytes} (encoded : fsEncodeChar c = .ok bytes) :
    bytes ≠ [] ∧ ∀ byte ∈ bytes, 0x80 ≤ byte.toNat := by
  have small : c.val < 0x110000 := c.isLt
  have read : ∀ {n : Nat}, 0x80 ≤ n → n < 256 →
      0x80 ≤ (UInt8.ofNat n).toNat := by
    intro n above below
    rwa [UInt8.toNat_ofNat_of_lt' below]
  simp only [fsEncodeChar, encodeChar] at encoded
  split_ifs at encoded with escaped whole one two three
  · cases encoded
    exact ⟨List.cons_ne_nil _ _, by
      simpa using read (by omega) (by omega)⟩
  · exact absurd one (by omega)
  all_goals
    cases encoded
    refine ⟨List.cons_ne_nil _ _, ?_⟩
    simp only [List.forall_mem_cons, List.not_mem_nil, false_implies,
      implies_true, and_true]
    refine ⟨?_, ?_⟩
    · exact read (by omega) (by omega)
    · first
      | exact read (by omega) (by omega)
      | exact ⟨read (by omega) (by omega), read (by omega) (by omega)⟩
      | exact ⟨read (by omega) (by omega), read (by omega) (by omega),
          read (by omega) (by omega)⟩

theorem fsEncodeChar_isOk (c : CodePoint) :
    (∃ bytes, fsEncodeChar c = .ok bytes) ↔ FsEncodable c := by
  unfold fsEncodeChar FsEncodable
  split_ifs with escaped
  · exact iff_of_true ⟨_, rfl⟩ fun _ => escaped
  · rw [encodeChar_isOk]
    cases isSurrogate c with
    | true => simpa using escaped
    | false => simp

theorem fsEncodeChar_error {c : CodePoint} {error : PyExc}
    (refused : fsEncodeChar c = .error error) :
    error = .unicodeEncodeError := by
  simp only [fsEncodeChar, encodeChar] at refused
  split_ifs at refused
  cases refused
  rfl

theorem fsEncode_cons (c : CodePoint) (s : Text) :
    fsEncode (c :: s) = do
      let head ← fsEncodeChar c
      return head ++ (← fsEncode s) := by
  unfold fsEncode
  rw [List.mapM_cons]
  cases fsEncodeChar c with
  | error error => rfl
  | ok head =>
      cases s.mapM fsEncodeChar with
      | error error => rfl
      | ok tail => rfl

theorem fsEncode_cons_eq_ok {c : CodePoint} {s : Text} {bytes : Bytes} :
    fsEncode (c :: s) = .ok bytes ↔ ∃ head tail, fsEncodeChar c = .ok head ∧
      fsEncode s = .ok tail ∧ bytes = head ++ tail := by
  rw [fsEncode_cons]
  cases fsEncodeChar c with
  | error error => simp
  | ok head =>
      cases fsEncode s with
      | error error => simp
      | ok tail => simp [eq_comm]

theorem fsEncode_isOk (s : Text) :
    (∃ bytes, fsEncode s = .ok bytes) ↔ ∀ c ∈ s, FsEncodable c := by
  simp only [← fsEncodeChar_isOk, ← mapM_isOk]
  unfold fsEncode
  cases s.mapM fsEncodeChar with
  | error error => simp
  | ok encoded => simp

theorem fsEncode_error {s : Text} {error : PyExc}
    (refused : fsEncode s = .error error) : error = .unicodeEncodeError := by
  unfold fsEncode at refused
  cases encoded : s.mapM fsEncodeChar with
  | error error' =>
      rw [encoded] at refused
      cases refused
      obtain ⟨c, _, raised⟩ := mapM_error encoded
      exact fsEncodeChar_error raised
  | ok bytes =>
      rw [encoded] at refused
      cases refused

theorem fsEncode_plain {s : Text} (plain : ∀ c ∈ s, c.val < 0x80) :
    fsEncode s = .ok (s.map fun c => .ofNat c.val) := by
  induction s with
  | nil => rfl
  | cons c s induction =>
      obtain ⟨first, others⟩ := List.forall_mem_cons.mp plain
      rw [fsEncode_cons, fsEncodeChar_plain first, induction others]
      rfl

/-- A plain string shares its bytes with no other. -/
theorem fsEncode_plain_inj {s t : Text} (plain : ∀ c ∈ t, c.val < 0x80)
    (same : fsEncode s = fsEncode t) : s = t := by
  rw [fsEncode_plain plain] at same
  induction t generalizing s with
  | nil =>
      cases s with
      | nil => rfl
      | cons c s =>
          obtain ⟨head, tail, encoded, _, empty⟩ := fsEncode_cons_eq_ok.mp same
          have none : head = [] := (List.append_eq_nil_iff.mp empty.symm).1
          by_cases high : 0x80 ≤ c.val
          · exact absurd none (fsEncodeChar_high high encoded).1
          · rw [fsEncodeChar_plain (not_le.mp high)] at encoded
            cases encoded
            cases none
  | cons d t induction =>
      obtain ⟨first, others⟩ := List.forall_mem_cons.mp plain
      cases s with
      | nil => cases same
      | cons c s =>
          obtain ⟨head, tail, encoded, rest, split⟩ :=
            fsEncode_cons_eq_ok.mp same
          have low : c.val < 0x80 := by
            by_contra high
            obtain ⟨some, above⟩ := fsEncodeChar_high (not_lt.mp high) encoded
            obtain ⟨lead, more, rfl⟩ := List.exists_cons_of_ne_nil some
            rw [List.map_cons, List.cons_append, List.cons.injEq] at split
            have large := above lead List.mem_cons_self
            rw [← split.1, UInt8.toNat_ofNat_of_lt' (by
              show d.val < 256
              omega)] at large
            omega
          rw [fsEncodeChar_plain low] at encoded
          cases encoded
          rw [List.map_cons, List.singleton_append, List.cons.injEq] at split
          have equal : d.val = c.val := by
            have values := congrArg UInt8.toNat split.1
            rwa [UInt8.toNat_ofNat_of_lt' (by
                show d.val < 256
                omega), UInt8.toNat_ofNat_of_lt' (by
                show c.val < 256
                omega)] at values
          rw [Fin.ext equal, induction others (rest.trans (by rw [split.2]))]

theorem zero_mem_fsEncode {s : Text} {bytes : Bytes}
    (encoded : fsEncode s = .ok bytes) : 0 ∈ bytes ↔ 0 ∈ s := by
  induction s generalizing bytes with
  | nil =>
      cases encoded
      simp
  | cons c s induction =>
      obtain ⟨head, tail, first, rest, rfl⟩ := fsEncode_cons_eq_ok.mp encoded
      rw [List.mem_append, List.mem_cons, induction rest]
      refine or_congr_left ?_
      by_cases high : 0x80 ≤ c.val
      · refine iff_of_false ?_ ?_
        · intro member
          exact absurd ((fsEncodeChar_high high first).2 0 member) (by decide)
        · rintro rfl
          exact absurd high (by decide)
      · rw [fsEncodeChar_plain (not_le.mp high)] at first
        cases first
        rw [List.mem_singleton]
        constructor
        · intro zero
          have values := congrArg UInt8.toNat zero
          rw [UInt8.toNat_ofNat_of_lt' (by
            show c.val < 256
            omega)] at values
          exact Fin.ext values
        · rintro rfl
          rfl

theorem mem_pathParts {s : Text} {c : CodePoint} (point : c ≠ 0x2E) :
    (∃ part ∈ pathParts s, c ∈ part) ↔ c ∈ s ∧ c ≠ 0x2F := by
  simp only [pathParts, List.mem_filter, decide_eq_true_eq, ← mem_splitOn]
  constructor
  · rintro ⟨part, ⟨isPart, _⟩, inside⟩
    exact ⟨part, isPart, inside⟩
  · rintro ⟨part, isPart, inside⟩
    refine ⟨part, ⟨isPart, List.ne_nil_of_mem inside, ?_⟩, inside⟩
    rintro rfl
    exact point (List.mem_singleton.mp inside)

private theorem zero_mem_names {parts : List Text} {names : List Bytes}
    (encoded : parts.mapM fsEncode = .ok names) :
    0 ∈ names.flatten ↔ ∃ part ∈ parts, 0 ∈ part := by
  induction parts generalizing names with
  | nil =>
      cases encoded
      simp
  | cons part parts induction =>
      rw [List.mapM_cons] at encoded
      obtain ⟨name, first, later⟩ := bind_eq_ok.mp encoded
      obtain ⟨others, rest, last⟩ := bind_eq_ok.mp later
      cases last
      rw [List.flatten_cons, List.mem_append, zero_mem_fsEncode first,
        induction rest, List.exists_mem_cons_iff]

/-- **The paths that the system takes**: no character of theirs is refused. -/
theorem pathNames_isOk (s : Text) :
    (∃ names, pathNames s = .ok names) ↔ ∀ c ∈ s, FsEncodable c ∧ c ≠ 0 := by
  have parts : ∀ {condition : CodePoint → Prop}, condition 0x2E →
      condition 0x2F →
      ((∀ part ∈ pathParts s, ∀ c ∈ part, condition c) ↔
        ∀ c ∈ s, condition c) := by
    intro condition atPoint atSlash
    constructor
    · intro each c member
      by_cases point : c = 0x2E
      · exact point ▸ atPoint
      by_cases slash : c = 0x2F
      · exact slash ▸ atSlash
      obtain ⟨part, isPart, inside⟩ := (mem_pathParts point).mpr ⟨member, slash⟩
      exact each part isPart c inside
    · intro each part isPart c inside
      by_cases point : c = 0x2E
      · exact point ▸ atPoint
      · exact each c ((mem_pathParts point).mp ⟨part, isPart, inside⟩).1
  have encodable := @parts FsEncodable (by decide) (by decide)
  have noNull := @parts (· ≠ 0) (by decide) (by decide)
  have split : (∀ c ∈ s, FsEncodable c ∧ c ≠ 0) ↔
      (∀ c ∈ s, FsEncodable c) ∧ ∀ c ∈ s, c ≠ 0 := forall₂_and
  rw [split, ← encodable, ← noNull]
  simp only [← fsEncode_isOk]
  rw [← mapM_isOk]
  unfold pathNames
  cases encoded : (pathParts s).mapM fsEncode with
  | error error => simp
  | ok names =>
      have absent : 0 ∉ names.flatten ↔
          ∀ part ∈ pathParts s, ∀ c ∈ part, c ≠ 0 := by
        rw [zero_mem_names encoded]
        constructor
        · rintro none part isPart c inside rfl
          exact none ⟨part, isPart, inside⟩
        · rintro each ⟨part, isPart, inside⟩
          exact each part isPart 0 inside rfl
      rw [← absent, ok_bind]
      by_cases null : 0 ∈ names.flatten
      · rw [if_pos null]
        simpa using null
      · rw [if_neg null]
        simpa using null

theorem pathNames_error {s : Text} {error : PyExc}
    (refused : pathNames s = .error error) : error.isValueError = true := by
  unfold pathNames at refused
  cases encoded : (pathParts s).mapM fsEncode with
  | error error' =>
      rw [encoded] at refused
      cases refused
      obtain ⟨part, _, raised⟩ := mapM_error encoded
      rw [fsEncode_error raised]
      rfl
  | ok names =>
      rw [encoded, ok_bind] at refused
      split_ifs at refused with null
      · cases refused
        rfl
      · cases refused

/-- A name without a slash is one part. -/
theorem pathNames_name {s : Text} {name : Bytes} (slash : 0x2F ∉ s)
    (some : s ≠ []) (point : s ≠ [0x2E]) (null : 0 ∉ s)
    (encoded : fsEncode s = .ok name) : pathNames s = .ok [name] := by
  have parts : pathParts s = [s] := by
    unfold pathParts
    rw [List.splitOn_eq_singleton slash, List.filter_cons_of_pos]
    · rfl
    · exact decide_eq_true ⟨some, point⟩
  unfold pathNames
  rw [parts, List.mapM_cons, encoded]
  simp [zero_mem_fsEncode encoded, null]

inductive Node where
  | dir
  | file (content : Bytes)
  deriving DecidableEq

/-- The names from the top of the tree. -/
abbrev Place := List Bytes

structure FileTree where
  node : Place → Option Node
  top : node [] = some .dir
  inner : ∀ place name, node (place ++ [name]) ≠ none → node place = some .dir

namespace FileTree

/-- Follow names from a place. -/
def walk (tree : FileTree) : Place → List Bytes → Option Place
  | place, [] => some place
  | place, name :: rest =>
      if tree.node place = some .dir then
        walk tree
          (if name = ascii ".." then place.dropLast else place ++ [name]) rest
      else none

/-- Where `root / s` leads. -/
def locate (tree : FileTree) (root : Place) (s : Text) :
    Except PyExc (Option Place) := do
  let names ← pathNames s
  return tree.walk (if isAbsolutePath s then [] else root) names

/-- `(root / s).exists()` -/
def pathExists (tree : FileTree) (root : Place) (s : Text) : Bool :=
  match tree.locate root s with
  | .ok (some place) => (tree.node place).isSome
  | _ => false

/-- `(root / s).read_bytes()` -/
def readBytes (tree : FileTree) (root : Place) (s : Text) :
    Except PyExc Bytes := do
  match (← tree.locate root s).bind tree.node with
  | some (.file content) => return content
  | _ => throw .osError

private theorem inner_of_free {tree : FileTree} {place : Place}
    (free : tree.node place ≠ some .dir) :
    ∃ parent name, place = parent ++ [name] := by
  rcases List.eq_nil_or_concat' place with rfl | concat
  · exact absurd tree.top free
  · exact concat

/-- A file at a place below a directory. -/
def setFile (tree : FileTree) (place : Place) (content : Bytes)
    (parent : tree.node place.dropLast = some .dir)
    (free : tree.node place ≠ some .dir) : FileTree where
  node := Function.update tree.node place (some (.file content))
  top := by
    obtain ⟨above, name, rfl⟩ := inner_of_free free
    rw [Function.update_of_ne (by simp)]
    exact tree.top
  inner := by
    intro above name present
    have isDir : tree.node above = some .dir := by
      by_cases here : above ++ [name] = place
      · subst here
        rwa [List.dropLast_concat] at parent
      · rw [Function.update_of_ne here] at present
        exact tree.inner above name present
    rw [Function.update_of_ne, isDir]
    rintro rfl
    exact free isDir

/-- `(root / s).write_bytes(content)` -/
def writeBytes (tree : FileTree) (root : Place) (s : Text) (content : Bytes) :
    Except PyExc FileTree := do
  match ← tree.locate root s with
  | some place =>
      if fits : tree.node place.dropLast = some .dir ∧
          tree.node place ≠ some .dir then
        return tree.setFile place content fits.1 fits.2
      else throw .osError
  | none => throw .osError

/-- `root.mkdir(parents=True, exist_ok=True)` -/
def mkdir (tree : FileTree) (root : Place) : Except PyExc FileTree :=
  if root.inits.all fun above =>
      tree.node above = none ∨ tree.node above = some .dir then
    .ok {
      node := fun place => if place <+: root then some .dir else tree.node place
      top := if_pos List.nil_prefix
      inner := by
        intro above name present
        split_ifs with within
        · rfl
        · rw [if_neg fun isPrefix =>
            within ((List.prefix_append above [name]).trans isPrefix)] at present
          exact tree.inner above name present }
  else .error .osError

section

variable {tree : FileTree} {root : Place} {s : Text}

theorem locate_isOk : (∃ found, tree.locate root s = .ok found) ↔
    ∀ c ∈ s, FsEncodable c ∧ c ≠ 0 := by
  rw [← pathNames_isOk]
  unfold locate
  cases pathNames s with
  | error error => simp
  | ok names => simp

theorem readBytes_eq_ok {content : Bytes} :
    tree.readBytes root s = .ok content ↔
      ∃ place, tree.locate root s = .ok (some place) ∧
        tree.node place = some (.file content) := by
  unfold readBytes
  cases tree.locate root s with
  | error error => simp
  | ok found =>
      cases found with
      | none => simp
      | some place =>
          rw [ok_bind, Option.bind_some]
          cases held : tree.node place with
          | none => simp [held]
          | some node =>
              cases node with
              | dir => simp [held]
              | file stored => simp [held]

/-- Reading a path that the system takes fails in no other way. -/
theorem readBytes_error {error : PyExc}
    (failed : tree.readBytes root s = .error error) :
    error = .osError ↔ ∀ c ∈ s, FsEncodable c ∧ c ≠ 0 := by
  rw [← @locate_isOk tree root s]
  unfold readBytes at failed
  cases located : tree.locate root s with
  | error error' =>
      rw [located] at failed
      cases failed
      refine iff_of_false ?_ (by simp)
      rintro rfl
      unfold locate at located
      cases named : pathNames s with
      | error error' =>
          rw [named] at located
          cases located
          exact absurd (pathNames_error named) (by decide)
      | ok names =>
          rw [named] at located
          cases located
  | ok found =>
      rw [located, ok_bind] at failed
      refine iff_of_true ?_ ⟨found, rfl⟩
      split at failed
      · cases failed
      · cases failed
        rfl

variable {place : Place} (located : tree.locate root s = .ok (some place))

include located

theorem pathExists_of_locate :
    tree.pathExists root s = (tree.node place).isSome := by
  unfold pathExists
  rw [located]

theorem writeBytes_of_locate (parent : tree.node place.dropLast = some .dir)
    (free : tree.node place ≠ some .dir) (content : Bytes) :
    tree.writeBytes root s content =
      .ok (tree.setFile place content parent free) := by
  unfold writeBytes
  rw [located, ok_bind]
  exact dif_pos ⟨parent, free⟩

end

section

variable {tree : FileTree} {root : Place} (isDir : tree.node root = some .dir)

include isDir

theorem node_dropLast : tree.node root.dropLast = some .dir := by
  rcases List.eq_nil_or_concat' root with rfl | ⟨parent, name, rfl⟩
  · exact isDir
  · rw [List.dropLast_concat]
    exact tree.inner parent name (isDir ▸ Option.some_ne_none _)

variable {s : Text} {name : Bytes} (slash : 0x2F ∉ s) (null : 0 ∉ s)
  (encoded : fsEncode s = .ok name)

include slash null encoded

/-- A name leads to the place of that name below the root. -/
theorem locate_name (some : s ≠ []) (point : s ≠ text ".")
    (points : s ≠ text "..") :
    tree.locate root s = .ok (.some (root ++ [name])) := by
  have relative : isAbsolutePath s = false := by
    cases s with
    | nil => rfl
    | cons c s =>
        have other : c ≠ 0x2F := fun here =>
          slash (here ▸ List.mem_cons_self)
        simpa [isAbsolutePath] using other
  have regular : name ≠ ascii ".." := by
    intro up
    have same : fsEncode (text "..") = .ok (ascii "..") := by decide +kernel
    have plain : ∀ c ∈ text "..", c.val < 0x80 := by
      rw [show text ".." = [0x2E, 0x2E] by decide +kernel]
      simp only [List.forall_mem_cons, List.not_mem_nil, false_implies,
        implies_true, and_true]
      decide
    rw [up, ← same] at encoded
    exact points (fsEncode_plain_inj plain encoded)
  unfold locate
  rw [pathNames_name slash some point null encoded, ok_bind, relative]
  simp [walk, isDir, regular]

/-- The two names that every directory has lead to directories. -/
theorem readBytes_points (points : s = text "." ∨ s = text "..") :
    tree.readBytes root s = .error .osError := by
  have up := node_dropLast isDir
  rcases points with rfl | rfl
  · have located : tree.locate root (text ".") = .ok (some root) := rfl
    unfold readBytes
    rw [located, ok_bind, Option.bind_some, isDir]
    rfl
  · have located : tree.locate root (text "..") = .ok (some root.dropLast) := by
      have names : pathNames (text "..") = .ok [ascii ".."] := by
        decide +kernel
      have relative : isAbsolutePath (text "..") = false := by decide +kernel
      unfold locate
      rw [names, ok_bind, relative]
      simp [walk, isDir]
    unfold readBytes
    rw [located, ok_bind, Option.bind_some, up]
    rfl

end

end FileTree

end Python
