import SovereignInference.Python.JsonFile
import SovereignInference.Python.JsonLimits
import SovereignInference.Python.JsonSurvival
import SovereignInference.SipRouter.Resolver

/-!
# The registry file

A registry is saved as a JSON list of its entries.  Loading takes the items of
such a list that are entries, and nothing from a file that is no JSON list; but
it raises at bytes that are no UTF-8 and at JSON beyond the scanner's limits.
-/

namespace SovereignInference.SipRouter

open Python Effects

/-- A registry.  In a manifest no dict has a key twice. -/
@[ext] structure ProviderRegistry where
  entries : List ProviderEntry
  distinct : ∀ entry ∈ entries, (Json.obj entry.manifest).DistinctKeys

/-- What escapes from `load`. -/
inductive LoadError where
  | unicodeDecodeError
  | valueError
  | recursionError
  deriving DecidableEq

namespace ProviderRegistry

def empty : ProviderRegistry := ⟨[], List.forall_mem_nil _⟩

def payloadItem (entry : ProviderEntry) : Json :=
  .obj [("base_url", .str entry.baseUrl), ("manifest", .obj entry.manifest)]

def payload (registry : ProviderRegistry) : Json :=
  .arr (registry.entries.map payloadItem)

/-- The bytes of the saved file, where so many arrays and objects may be nested
in what is written. -/
def save (levels : Nat) (registry : ProviderRegistry) :
    Except PyExc Bytes := do
  encodeUtf8 (← Json.dumpIndented levels 0 registry.payload)

/-- An item of the list, if it is an entry. -/
def entryOf (item : Json) : Option ProviderEntry := do
  let fields ← item.asDict
  let baseUrl ← (fields.get "base_url").asStr
  let manifest ← (fields.get "manifest").asDict
  return ⟨baseUrl, manifest⟩

theorem entryOf_eq_some {item : Json} {entry : ProviderEntry} :
    entryOf item = some entry ↔ ∃ fields : Dict, item = .obj fields ∧
      fields.find "base_url" = some (.str entry.baseUrl) ∧
      fields.find "manifest" = some (.obj entry.manifest) := by
  have given : ∀ (fields : Dict) (key : Text) (value : Json), value ≠ .null →
      (fields.get key = value ↔ fields.find key = some value) := by
    intro fields key value notNull
    unfold Dict.get
    cases fields.find key with
    | none => simp [notNull.symm]
    | some found => simp
  obtain ⟨baseUrl, manifest⟩ := entry
  unfold entryOf
  simp only [Option.bind_eq_bind, Option.bind_eq_some_iff,
    Json.asDict_eq_some, Json.asStr_eq_some, Option.pure_def,
    Option.some.injEq, ProviderEntry.mk.injEq]
  constructor
  · rintro ⟨fields, rfl, url, isUrl, dict, isManifest, rfl, rfl⟩
    exact ⟨fields, rfl, (given fields _ (.str url) nofun).mp isUrl,
      (given fields _ (.obj dict) nofun).mp isManifest⟩
  · rintro ⟨fields, rfl, isUrl, isManifest⟩
    exact ⟨fields, rfl, baseUrl,
      (given fields _ (.str baseUrl) nofun).mpr isUrl, manifest,
      (given fields _ (.obj manifest) nofun).mpr isManifest, rfl, rfl⟩

theorem entryOf_distinct {item : Json} {entry : ProviderEntry}
    (distinct : item.DistinctKeys) (isEntry : entryOf item = some entry) :
    (Json.obj entry.manifest).DistinctKeys := by
  obtain ⟨fields, rfl, _, manifest⟩ := entryOf_eq_some.mp isEntry
  cases distinct with
  | obj _ _ each => exact each _ (Dict.find_mem manifest)

/-- The entries of what `json.loads` gives. -/
def entriesOf (data : Json) : List ProviderEntry :=
  (data.asList.getD []).filterMap entryOf

def ofData (data : Json) (distinct : data.DistinctKeys) : ProviderRegistry where
  entries := entriesOf data
  distinct := by
    intro entry member
    obtain ⟨item, listed, isEntry⟩ := List.mem_filterMap.mp member
    cases distinct with
    | arr items each => exact entryOf_distinct (each item listed) isEntry
    | _ => cases listed

/-- `load` of a file with such bytes, or none if it cannot be read, where so
many arrays and objects may be nested in what is read. -/
def load (depth : Nat) (content : Option Bytes) :
    Except LoadError ProviderRegistry :=
  match content with
  | none => .ok empty
  | some bytes =>
      match readText bytes with
      | none => .error .unicodeDecodeError
      | some raw =>
          match read : Json.loads depth raw with
          | .ok data => .ok (ofData data (Json.loads_distinctKeys read))
          | .error .decodeError => .ok empty
          | .error .valueError => .error .valueError
          | .error .recursionError => .error .recursionError

theorem load_eq_ok {depth : Nat} {content : Bytes} {raw : Text}
    (decoded : readText content = some raw) {registry : ProviderRegistry} :
    load depth (some content) = .ok registry ↔
      (∃ data, Json.loads depth raw = .ok data ∧
        registry.entries = entriesOf data) ∨
      Json.loads depth raw = .error .decodeError ∧ registry.entries = [] := by
  unfold load
  simp only [decoded]
  split
  · rename_i data read
    rw [Except.ok.injEq, ProviderRegistry.ext_iff]
    dsimp only [ofData]
    rw [read]
    simp [eq_comm]
  · rename_i failed
    rw [Except.ok.injEq, ProviderRegistry.ext_iff, failed]
    simp [empty, eq_comm]
  · rename_i failed
    simp [failed]
  · rename_i failed
    simp [failed]

/-- The object of an entry. -/
inductive IsEntry : Json → ProviderEntry → Prop where
  | mk {fields : Dict} {entry : ProviderEntry} :
      fields.find "base_url" = some (.str entry.baseUrl) →
      fields.find "manifest" = some (.obj entry.manifest) →
      IsEntry (.obj fields) entry

/-- The entries among the items of a list, in their order. -/
inductive Listed : List Json → List ProviderEntry → Prop where
  | nil : Listed [] []
  | entry {item : Json} {entry : ProviderEntry} {items : List Json}
      {entries : List ProviderEntry} :
      IsEntry item entry → Listed items entries →
        Listed (item :: items) (entry :: entries)
  | other {item : Json} {items : List Json} {entries : List ProviderEntry} :
      (∀ entry, ¬ IsEntry item entry) → Listed items entries →
        Listed (item :: items) entries

/-- The bytes are a list in JSON and UTF-8. -/
def IsList (content : Bytes) (items : List Json) : Prop :=
  ∃ raw depth, readText content = some raw ∧
    Json.loads depth raw = .ok (.arr items)

/-- The entries of a file: those that its list has, or none if it is not a
list. -/
def Lists (content : Bytes) (entries : List ProviderEntry) : Prop :=
  (∃ items, IsList content items ∧ Listed items entries) ∨
    (∀ items, ¬ IsList content items) ∧ entries = []

private theorem isEntry_iff {item : Json} {entry : ProviderEntry} :
    IsEntry item entry ↔ entryOf item = some entry := by
  rw [entryOf_eq_some]
  constructor
  · rintro ⟨isUrl, isManifest⟩
    exact ⟨_, rfl, isUrl, isManifest⟩
  · rintro ⟨fields, rfl, isUrl, isManifest⟩
    exact ⟨isUrl, isManifest⟩

theorem listed_iff {items : List Json} {entries : List ProviderEntry} :
    Listed items entries ↔ items.filterMap entryOf = entries := by
  constructor
  · intro listed
    induction listed with
    | nil => rfl
    | entry isEntry _ induction =>
        rw [List.filterMap_cons_some (isEntry_iff.mp isEntry), induction]
    | other noEntry _ induction =>
        rw [List.filterMap_cons_none, induction]
        rw [Option.eq_none_iff_forall_ne_some]
        exact fun entry isEntry => noEntry entry (isEntry_iff.mpr isEntry)
  · rintro rfl
    induction items with
    | nil => exact .nil
    | cons item rest induction =>
        cases found : entryOf item with
        | none =>
            rw [List.filterMap_cons_none found]
            refine .other ?_ induction
            intro entry isEntry
            rw [isEntry_iff, found] at isEntry
            cases isEntry
        | some entry =>
            rw [List.filterMap_cons_some found]
            exact .entry (isEntry_iff.mpr found) induction

/-- What is read as JSON is read as the same value at every depth. -/
theorem isList_iff {content : Bytes} {raw : Text} {depth : Nat} {data : Json}
    (decoded : readText content = some raw)
    (read : Json.loads depth raw = .ok data) (items : List Json) :
    IsList content items ↔ data = .arr items := by
  constructor
  · rintro ⟨raw', other, decoded', read'⟩
    rw [decoded] at decoded'
    cases decoded'
    have wide := Json.loads_mono (Nat.le_max_left depth other) read
    have wide' := Json.loads_mono (Nat.le_max_right depth other) read'
    rw [wide] at wide'
    exact Except.ok.inj wide'
  · rintro rfl
    exact ⟨raw, depth, decoded, read⟩

/-- What is no JSON at one depth is none at any. -/
theorem not_isList {content : Bytes} {raw : Text} {depth : Nat}
    (decoded : readText content = some raw)
    (failed : Json.loads depth raw = .error .decodeError)
    (items : List Json) : ¬ IsList content items := by
  rintro ⟨raw', other, decoded', read⟩
  rw [decoded] at decoded'
  cases decoded'
  have wide := Json.loads_mono (Nat.le_max_right depth other) read
  have wide' := Json.loads_extends (Nat.le_max_left depth other)
    (by rw [failed]; nofun)
  rw [wide, failed] at wide'
  cases wide'

/-- A file that is read gives what it lists. -/
theorem lists_entriesOf {content : Bytes} {raw : Text} {depth : Nat}
    {data : Json} (decoded : readText content = some raw)
    (read : Json.loads depth raw = .ok data) :
    Lists content (entriesOf data) := by
  have same := isList_iff decoded read
  cases isList : data.asList with
  | some items =>
      left
      obtain rfl := Json.asList_eq_some.mp isList
      exact ⟨items, (same items).mpr rfl, listed_iff.mpr rfl⟩
  | none =>
      right
      refine ⟨?_, by simp [entriesOf, isList]⟩
      intro items list
      obtain rfl := (same items).mp list
      cases isList

/-- The text is within the limits of the scanner. -/
def WithinLimits (depth : Nat) (raw : Text) : Prop :=
  raw.head? = some 0xFEFF ∨ ¬ Json.Overruns depth (Json.skipSpace raw)

private theorem withinLimits_iff {depth : Nat} {raw : Text} :
    WithinLimits depth raw ↔ (∃ data, Json.loads depth raw = .ok data) ∨
      Json.loads depth raw = .error .decodeError := by
  have limits : WithinLimits depth raw ↔
      ¬ Json.Raises (Json.loads depth raw) := by
    rw [Json.loads_raises, not_and_or, not_not]
    rfl
  rw [limits]
  unfold Json.Raises
  cases Json.loads depth raw with
  | ok data => simp
  | error error => simp

/-- **Loading gives what the file lists** exactly if its bytes are UTF-8 and its
text is within the limits of the scanner. -/
theorem load_lists {depth : Nat} {content : Bytes} :
    (∃ registry, load depth (some content) = .ok registry ∧
        Lists content registry.entries) ↔
      ∃ raw, readText content = some raw ∧ WithinLimits depth raw := by
  cases decoded : readText content with
  | none =>
      refine iff_of_false ?_ (by simp)
      rintro ⟨registry, loaded, _⟩
      unfold load at loaded
      simp [decoded] at loaded
  | some raw =>
      simp only [Option.some.injEq, exists_eq_left', withinLimits_iff,
        load_eq_ok decoded]
      constructor
      · rintro ⟨registry, ⟨data, read, _⟩ | ⟨failed, _⟩, _⟩
        · exact .inl ⟨data, read⟩
        · exact .inr failed
      · rintro (⟨data, read⟩ | failed)
        · have distinct := Json.loads_distinctKeys read
          exact ⟨ofData data distinct, .inl ⟨data, read, rfl⟩,
            lists_entriesOf decoded read⟩
        · exact ⟨empty, .inr ⟨failed, rfl⟩,
            .inr ⟨not_isList decoded failed, rfl⟩⟩

/-- Equal entries. -/
def SameEntry (entry other : ProviderEntry) : Prop :=
  entry.baseUrl = other.baseUrl ∧
    (Json.obj entry.manifest).pyEq (.obj other.manifest) = true

/-- Loading the saved registry gives the same entries in the same order. -/
def ComesBack (levels depth : Nat) (registry : ProviderRegistry) : Prop :=
  ∃ content loaded, save levels registry = .ok content ∧
    load depth (some content) = .ok loaded ∧
    List.Forall₂ SameEntry registry.entries loaded.entries

theorem save_eq_ok {levels : Nat} {registry : ProviderRegistry}
    {content : Bytes} :
    save levels registry = .ok content ↔
      registry.payload.ShortIntegers ∧ registry.payload.nesting ≤ levels ∧
      encodeUtf8 (Json.indented 0 registry.payload) = .ok content := by
  have written := Json.dumpIndented_eq_ok (Nat.zero_le levels)
    registry.payload
  unfold save
  simp only [bind_eq_ok, written, Nat.zero_add]
  constructor
  · rintro ⟨_, ⟨short, atMost, rfl⟩, encoded⟩
    exact ⟨short, atMost, encoded⟩
  · rintro ⟨short, atMost, encoded⟩
    exact ⟨_, ⟨short, atMost, rfl⟩, encoded⟩

/-- An entry as it is read of the saved file. -/
def reloadedEntry (entry : ProviderEntry) : ProviderEntry where
  baseUrl := rejoined entry.baseUrl
  manifest := ((Json.obj entry.manifest).reloaded rejoined).asDict.getD []

theorem reloaded_manifest (entry : ProviderEntry) :
    (Json.obj entry.manifest).reloaded rejoined =
      .obj (reloadedEntry entry).manifest := by
  unfold reloadedEntry
  rw [Json.reloaded]
  rfl

theorem entryOf_reloaded (entry : ProviderEntry) :
    entryOf ((payloadItem entry).reloaded rejoined) =
      some (reloadedEntry entry) := by
  have keys : (text "base_url") ≠ text "manifest" := by decide
  have kept : rejoined "base_url" = text "base_url" ∧
      rejoined "manifest" = text "manifest" := by decide
  rw [entryOf_eq_some]
  unfold payloadItem
  rw [Json.reloaded_obj (by simpa using keys)
    (List.forall_mem_cons.mpr
      ⟨kept.1, List.forall_mem_singleton.mpr kept.2⟩)]
  refine ⟨_, rfl, ?_, ?_⟩
  · rw [Dict.find_insertionSort, List.map_cons, Dict.find_cons, if_pos rfl,
      Json.reloaded]
    rfl
  · rw [Dict.find_insertionSort, List.map_cons, List.map_cons, Dict.find_cons,
      if_neg keys, Dict.find_cons, if_pos rfl, reloaded_manifest]

private theorem reloaded_payload (registry : ProviderRegistry) :
    registry.payload.reloaded rejoined = .arr
      (registry.entries.map fun entry =>
        (payloadItem entry).reloaded rejoined) := by
  unfold payload
  rw [Json.reloaded, Json.reloadedItems_eq, List.map_map]
  rfl

theorem load_indented {depth : Nat} {registry : ProviderRegistry}
    {content : Bytes} (short : registry.payload.ShortIntegers)
    (encoded : encodeUtf8 (Json.indented 0 registry.payload) = .ok content)
    (loaded : ProviderRegistry) :
    load depth (some content) = .ok loaded ↔
      registry.payload.nesting ≤ depth ∧
        loaded.entries = registry.entries.map reloadedEntry := by
  obtain ⟨bytes, encoded', decoded⟩ := readText_plain
    (@Json.indented_plain 0 registry.payload)
  rw [encoded] at encoded'
  cases encoded'
  have entries : entriesOf (registry.payload.reloaded rejoined) =
      registry.entries.map reloadedEntry := by
    unfold entriesOf
    rw [reloaded_payload]
    change (registry.entries.map _).filterMap entryOf = _
    rw [List.filterMap_map, ← List.filterMap_eq_map]
    exact congrArg (fun f => registry.entries.filterMap f)
      (funext entryOf_reloaded)
  rw [load_eq_ok decoded, Json.loads_indented short, Json.readBack]
  split_ifs with shallow
  · simp [shallow, entries]
  · simp [shallow]

private theorem sameEntry_iff {entry : ProviderEntry}
    (distinct : (Json.obj entry.manifest).DistinctKeys) :
    SameEntry entry (reloadedEntry entry) ↔
      Unpaired entry.baseUrl ∧ (Json.obj entry.manifest).Survives := by
  rw [← Json.pyEq_reloaded distinct, ← rejoined_eq_iff, reloaded_manifest]
  unfold SameEntry
  exact and_congr_left' eq_comm

/-- **A saved registry comes back** exactly if its file can be written and read
within the limits, and every string, key and float survives. -/
theorem comesBack_iff {levels depth : Nat} {registry : ProviderRegistry} :
    ComesBack levels depth registry ↔
      registry.payload.ShortIntegers ∧ registry.payload.nesting ≤ levels ∧
      registry.payload.nesting ≤ depth ∧
      ∀ entry ∈ registry.entries,
        Unpaired entry.baseUrl ∧ (Json.obj entry.manifest).Survives := by
  unfold ComesBack
  constructor
  · rintro ⟨content, loaded, saved, isLoaded, same⟩
    obtain ⟨short, written, encoded⟩ := save_eq_ok.mp saved
    obtain ⟨read, entries⟩ := (load_indented short encoded loaded).mp isLoaded
    refine ⟨short, written, read, ?_⟩
    rw [entries, List.forall₂_map_right_iff, List.forall₂_same] at same
    exact fun entry member => (sameEntry_iff
      (registry.distinct entry member)).mp (same entry member)
  · rintro ⟨short, written, read, survives⟩
    obtain ⟨content, encoded, decoded⟩ := readText_plain
      (@Json.indented_plain 0 registry.payload)
    obtain ⟨loaded, isLoaded⟩ : ∃ loaded,
        load depth (some content) = .ok loaded := by
      have back := Json.loads_indented short depth
      rw [Json.readBack, if_pos read] at back
      exact ⟨ofData _ (Json.loads_distinctKeys back),
        (load_eq_ok decoded).mpr (.inl ⟨_, back, rfl⟩)⟩
    refine ⟨content, loaded, save_eq_ok.mpr ⟨short, written, encoded⟩,
      isLoaded, ?_⟩
    rw [((load_indented short encoded loaded).mp isLoaded).2,
      List.forall₂_map_right_iff, List.forall₂_same]
    exact fun entry member => (sameEntry_iff
      (registry.distinct entry member)).mpr (survives entry member)

/-- **Loading gives what the file lists**, and a saved registry comes back,
exactly under these conditions on the bytes and on the entries. -/
theorem load_graceful_iff (levels depth : Nat) (content : Bytes)
    (registry : ProviderRegistry) :
    ((∃ loaded, load depth (some content) = .ok loaded ∧
        Lists content loaded.entries) ↔
      ∃ raw, readText content = some raw ∧ WithinLimits depth raw) ∧
    (ComesBack levels depth registry ↔
      registry.payload.ShortIntegers ∧ registry.payload.nesting ≤ levels ∧
      registry.payload.nesting ≤ depth ∧
      ∀ entry ∈ registry.entries,
        Unpaired entry.baseUrl ∧ (Json.obj entry.manifest).Survives) :=
  ⟨load_lists, comesBack_iff⟩

/-- Bytes that are no UTF-8 raise. -/
theorem load_raises : load 1000 (some [0xFF]) = .error .unicodeDecodeError :=
  rfl

end ProviderRegistry

end SovereignInference.SipRouter
