import SovereignInference.Python.JsonSettled
import SovereignInference.Python.SameMembers
import SovereignInference.SipOpenaiProxy.Sources
import SovereignInference.SipRouter.Registry

/-!
# The saved configuration

What the app remembers across restarts, as it is written to the config file
and read back.  Reading back what was written gives the same configuration,
unless too much of it is nested or a string of it holds a high surrogate before
a low one.
-/

namespace SovereignInference.SipOpenaiProxy

open Python Effects SipProtocol SipRouter

/-- The bytes of the config file, if there is one. -/
abbrev ConfigFile := Option Bytes

def configVersion : Int := 1

namespace LocalUse

def toJson (localUse : LocalUse) : Json :=
  .obj [("runtime", .str localUse.runtime), ("model", .str localUse.model)]

end LocalUse

/-- A provider as it is saved. -/
def entryJson (entry : ProviderEntry) : Json :=
  .obj [("base_url", .str entry.baseUrl), ("manifest", .obj entry.manifest)]

namespace AppConfig

def toJson (config : AppConfig) : Dict :=
  [("version", .int configVersion),
    ("providers", .arr (config.providers.map entryJson)),
    ("directories", .arr (config.directories.map .str)),
    ("api_key", config.apiKey), ("token", config.token),
    ("onboarding_complete", .bool config.onboardingComplete),
    ("local_use", (config.localUse.map LocalUse.toJson).getD .null)]

end AppConfig

/-- `value[key]`. -/
def item (value : Json) (key : Text) : Except PyExc Json :=
  match value with
  | .obj fields =>
      match Dict.find fields key with
      | some value => .ok value
      | none => .error .keyError
  | _ => .error .typeError

/-- A pair that `dict` takes from a list: a string and a value. -/
def addPair (fields : Dict) (pair : Json) : Except PyExc Dict := do
  match ← pair.iterate with
  | [.str key, value] => return fields.set key value
  | [_, _] => throw .typeError
  | _ => throw .valueError

/-- `dict(value)`, where the keys are strings. -/
def dictOf : Json → Except PyExc Dict
  | .obj fields => .ok fields
  | .arr pairs => pairs.foldlM addPair []
  | .str [] => .ok []
  | .str _ => .error .valueError
  | _ => .error .typeError

section

variable (isPrintable : CodePoint → Bool)

/-- `str(value[key])`. -/
def strAt (value : Json) (key : Text) : Except PyExc Text := do
  (← item value key).toStr isPrintable

def LocalUse.fromJson (data : Json) : Except PyExc LocalUse := do
  let runtime ← strAt isPrintable data "runtime"
  let model ← strAt isPrintable data "model"
  return ⟨runtime, model⟩

def readEntry (data : Json) : Except PyExc ProviderEntry := do
  let baseUrl ← strAt isPrintable data "base_url"
  let manifest ← dictOf (← item data "manifest")
  return ⟨baseUrl, manifest⟩

def readEntries : List Json → Except PyExc (List ProviderEntry)
  | [] => .ok []
  | data :: rest => do
      let entry ← readEntry isPrintable data
      return entry :: (← readEntries rest)

def readStrs : List Json → Except PyExc (List Text)
  | [] => .ok []
  | data :: rest => do
      let s ← data.toStr isPrintable
      return s :: (← readStrs rest)

/-- `data.get(key, [])`, iterated over. -/
def listAt (data : Dict) (key : Text) : Except PyExc (List Json) :=
  ((data.find key).getD (.arr [])).iterate

def AppConfig.fromJson (data : Dict) : Except PyExc AppConfig := do
  let providers ← readEntries isPrintable (← listAt data "providers")
  let localUseRaw := data.get "local_use"
  let directories ← readStrs isPrintable (← listAt data "directories")
  let onboarding := (data.find "onboarding_complete").getD (.bool false)
  let localUse ← if localUseRaw.truthy then
      some <$> LocalUse.fromJson isPrintable localUseRaw
    else pure none
  return {
    providers, directories, apiKey := data.get "api_key"
    token := data.get "token", onboardingComplete := onboarding.truthy
    localUse }

/-- The exceptions that `load_config` turns into a `ValueError`. -/
def malformed : PyExc → PyExc
  | .keyError | .typeError | .unicodeEncodeError => .valueError
  | error => error

/-- `load_config`, where so many arrays and objects may be nested in the
file. -/
def loadConfig (depth : Nat) : ConfigFile → Except PyExc AppConfig
  | none => .ok .default
  | some bytes =>
      match readText bytes with
      | none => .error .valueError
      | some written =>
          match Json.loads depth written with
          | .ok (.obj data) =>
              (AppConfig.fromJson isPrintable data).mapError malformed
          | .error .recursionError => .error .recursionError
          | _ => .error .valueError

end

/-- `save_config`: the bytes that replace the file, where so many arrays and
objects may be nested in them, and what replacing it raises, if it does. -/
def saveConfig (levels : Nat) (config : AppConfig) (raises : Option PyExc) :
    Except PyExc Bytes := do
  let payload ← Json.dumpIndented levels 0 (.obj config.toJson)
  match raises with
  | some error => throw error
  | none => encodeUtf8 payload

/-- The configurations are equal but for the order of keys. -/
def AppConfig.Same (config other : AppConfig) : Prop :=
  (Json.obj config.toJson).settled = (Json.obj other.toJson).settled

/-- No dict of the configuration has a key twice. -/
structure AppConfig.Distinct (config : AppConfig) : Prop where
  manifests : ∀ entry ∈ config.providers,
    (Json.obj entry.manifest).DistinctKeys
  apiKey : config.apiKey.DistinctKeys
  token : config.token.DistinctKeys

/-- The configuration as it is read of its text. -/
def AppConfig.restored (config : AppConfig) : AppConfig where
  providers := config.providers.map ProviderRegistry.reloadedEntry
  directories := config.directories.map rejoined
  apiKey := config.apiKey.reloaded rejoined
  token := config.token.reloaded rejoined
  onboardingComplete := config.onboardingComplete
  localUse := config.localUse.map fun localUse =>
    ⟨rejoined localUse.runtime, rejoined localUse.model⟩

/-- The configuration can be written. -/
structure AppConfig.Writable (levels : Nat) (config : AppConfig) : Prop where
  short : (Json.obj config.toJson).ShortIntegers
  shallow : (Json.obj config.toJson).nesting ≤ levels

/-- What is written of the configuration can be read, and is the same. -/
structure AppConfig.ComesBack (depth : Nat) (config : AppConfig) : Prop where
  shallow : (Json.obj config.toJson).nesting ≤ depth
  unpaired : ∀ s ∈ (Json.obj config.toJson).strings, Unpaired s

section

variable {isPrintable : CodePoint → Bool}

theorem find_mapped (f : Json → Json) (fields : Dict) (key : Text) :
    Dict.find (fields.map fun field => (field.1, f field.2)) key =
      (fields.find key).map f := by
  induction fields with
  | nil => rfl
  | cons field rest induction =>
      rw [List.map_cons, Dict.find_cons, Dict.find_cons]
      split_ifs
      · rfl
      · exact induction

theorem entryJson_reloaded (entry : ProviderEntry) :
    (entryJson entry).reloaded rejoined =
      entryJson (ProviderRegistry.reloadedEntry entry) := by
  have keys : (text "base_url") ≠ text "manifest" := by decide
  have kept : rejoined "base_url" = text "base_url" ∧
      rejoined "manifest" = text "manifest" := by decide
  have ordered : List.Pairwise KeyBefore
      [(text "base_url", Json.str (rejoined entry.baseUrl)),
        (text "manifest", (Json.obj entry.manifest).reloaded rejoined)] := by
    have before : text "base_url" ≤ text "manifest" := by decide
    simpa [KeyBefore] using before
  unfold entryJson
  rw [Json.reloaded_obj (by simpa using keys) (List.forall_mem_cons.mpr
    ⟨kept.1, List.forall_mem_singleton.mpr kept.2⟩),
    ← ProviderRegistry.reloaded_manifest]
  exact congrArg Json.obj ordered.insertionSort_eq

theorem readEntries_map (entries : List ProviderEntry) :
    readEntries isPrintable (entries.map entryJson) = .ok entries := by
  induction entries with
  | nil => rfl
  | cons entry rest induction =>
      have first : readEntry isPrintable (entryJson entry) = .ok entry := rfl
      rw [List.map_cons, readEntries, first, induction]
      rfl

theorem readStrs_map (strs : List Text) :
    readStrs isPrintable (strs.map .str) = .ok strs := by
  induction strs with
  | nil => rfl
  | cons s rest induction =>
      rw [List.map_cons, readStrs, induction]
      rfl

theorem toJson_keys (config : AppConfig) :
    (config.toJson.map (·.1)).Nodup ∧
      ∀ key ∈ config.toJson.map (·.1), rejoined key = key := by
  change (List.Nodup [text "version", text "providers", text "directories",
    text "api_key", text "token", text "onboarding_complete",
    text "local_use"]) ∧ ∀ key ∈ [text "version", text "providers",
    text "directories", text "api_key", text "token",
    text "onboarding_complete", text "local_use"], rejoined key = key
  decide

/-- The fields of the configuration as they are read. -/
def reloadedFields (config : AppConfig) : Dict :=
  config.toJson.map fun field => (field.1, field.2.reloaded rejoined)

theorem toJson_reloaded (config : AppConfig) :
    (Json.obj config.toJson).reloaded rejoined =
      .obj ((reloadedFields config).insertionSort KeyBefore) := by
  obtain ⟨nodup, kept⟩ := toJson_keys config
  exact Json.reloaded_obj nodup fun field member =>
    kept field.1 (List.mem_map_of_mem member)

theorem providers_reloaded (config : AppConfig) :
    (Json.arr (config.providers.map entryJson)).reloaded rejoined =
      .arr (config.restored.providers.map entryJson) := by
  rw [Json.reloaded, Json.reloadedItems_eq, List.map_map]
  unfold AppConfig.restored
  rw [List.map_map]
  exact congrArg Json.arr
    (List.map_congr_left fun entry _ => entryJson_reloaded entry)

theorem directories_reloaded (config : AppConfig) :
    (Json.arr (config.directories.map .str)).reloaded rejoined =
      .arr (config.restored.directories.map .str) := by
  rw [Json.reloaded, Json.reloadedItems_eq, List.map_map]
  unfold AppConfig.restored
  rw [List.map_map]
  rfl

theorem fromJson_reloaded (config : AppConfig) :
    AppConfig.fromJson isPrintable
        ((reloadedFields config).insertionSort KeyBefore) =
      .ok config.restored := by
  have found : ∀ key value, config.toJson.find key = some value →
      Dict.find ((reloadedFields config).insertionSort KeyBefore) key =
        some (value.reloaded rejoined) := by
    intro key value isValue
    rw [Dict.find_insertionSort]
    unfold reloadedFields
    rw [find_mapped, isValue]
    rfl
  have providers := found "providers" _ rfl
  have directories := found "directories" _ rfl
  have apiKey := found "api_key" _ rfl
  have token := found "token" _ rfl
  have onboarding := found "onboarding_complete" _ rfl
  have localUse := found "local_use" _ rfl
  rw [providers_reloaded] at providers
  rw [directories_reloaded] at directories
  unfold AppConfig.fromJson listAt Dict.get
  rw [providers, directories, apiKey, token, onboarding, localUse]
  simp only [Option.getD_some, Json.iterate, ok_bind]
  rw [readEntries_map, readStrs_map, ok_bind, ok_bind]
  clear found providers directories apiKey token onboarding localUse
  obtain ⟨_, _, _, _, _, localUse⟩ := config
  cases localUse with
  | none => rfl
  | some localUse => rfl

theorem saveConfig_eq_ok {levels : Nat} {config : AppConfig}
    {raises : Option PyExc} {bytes : Bytes} :
    saveConfig levels config raises = .ok bytes ↔
      config.Writable levels ∧ raises = none ∧
        encodeUtf8 (Json.indented 0 (.obj config.toJson)) = .ok bytes := by
  have written := Json.dumpIndented_eq_ok (Nat.zero_le levels)
    (.obj config.toJson)
  unfold saveConfig
  simp only [bind_eq_ok, written, Nat.zero_add]
  constructor
  · rintro ⟨_, ⟨short, shallow, rfl⟩, saved⟩
    cases raises with
    | some error => cases saved
    | none => exact ⟨⟨short, shallow⟩, rfl, saved⟩
  · rintro ⟨⟨short, shallow⟩, rfl, encoded⟩
    exact ⟨_, ⟨short, shallow, rfl⟩, encoded⟩

/-- A configuration that can be written is saved unless replacing the file
raises. -/
theorem saveConfig_isOk {levels : Nat} {config : AppConfig}
    (writable : config.Writable levels) :
    ∃ bytes, saveConfig levels config none = .ok bytes := by
  obtain ⟨bytes, encoded, _⟩ :=
    readText_plain (@Json.indented_plain 0 (.obj config.toJson))
  exact ⟨bytes, saveConfig_eq_ok.mpr ⟨writable, rfl, encoded⟩⟩

/-- Replacing the file raises only when the bytes are there. -/
theorem saveConfig_raised {levels : Nat} {config : AppConfig}
    (writable : config.Writable levels) (error : PyExc) :
    saveConfig levels config (some error) = .error error := by
  have shallow : 0 + (Json.obj config.toJson).nesting ≤ levels := by
    rw [Nat.zero_add]
    exact writable.shallow
  have dumped := (Json.dumpIndented_eq_ok (Nat.zero_le levels) _ _).mpr
    ⟨writable.short, shallow, rfl⟩
  unfold saveConfig
  rw [dumped]
  rfl

/-- **What is read of a saved configuration.** -/
theorem loadConfig_saved {levels : Nat} {config : AppConfig}
    {raises : Option PyExc} {bytes : Bytes}
    (saved : saveConfig levels config raises = .ok bytes) (depth : Nat) :
    loadConfig isPrintable depth (some bytes) =
      if (Json.obj config.toJson).nesting ≤ depth then .ok config.restored
      else .error .recursionError := by
  obtain ⟨writable, _, encoded⟩ := saveConfig_eq_ok.mp saved
  obtain ⟨bytes', encoded', read⟩ :=
    readText_plain (@Json.indented_plain 0 (.obj config.toJson))
  rw [encoded] at encoded'
  cases encoded'
  have loads := Json.loads_indented writable.short depth
  rw [Json.readBack, toJson_reloaded] at loads
  unfold loadConfig
  dsimp only
  rw [read]
  dsimp only
  rw [loads]
  split_ifs with shallow
  · dsimp only
    rw [fromJson_reloaded]
    rfl
  · rfl

private theorem localUse_settled (localUse : Option LocalUse) :
    Json.settled (((localUse.map fun localUse => LocalUse.mk
        (rejoined localUse.runtime) (rejoined localUse.model)).map
          LocalUse.toJson).getD .null) =
      (((localUse.map LocalUse.toJson).getD .null).reloaded
        rejoined).settled := by
  cases localUse with
  | none => rfl
  | some localUse =>
      have keys : (text "runtime") ≠ text "model" := by decide
      have kept : rejoined "runtime" = text "runtime" ∧
          rejoined "model" = text "model" := by decide
      change Json.settled (.obj _) = ((Json.obj _).reloaded rejoined).settled
      rw [Json.reloaded_obj (by simpa using keys) (List.forall_mem_cons.mpr
        ⟨kept.1, List.forall_mem_singleton.mpr kept.2⟩),
        Json.settled_insertionSort (by simpa using keys)]
      rfl

theorem restored_settled (config : AppConfig) :
    (Json.obj config.restored.toJson).settled =
      ((Json.obj config.toJson).reloaded rejoined).settled := by
  have keys : ((reloadedFields config).map (·.1)).Nodup :=
    (toJson_keys config).1
  rw [toJson_reloaded, Json.settled_insertionSort keys,
    Json.settled_obj (toJson_keys _).1, Json.settled_obj keys]
  have localUse := localUse_settled config.localUse
  have providers := providers_reloaded config
  have directories := directories_reloaded config
  unfold reloadedFields AppConfig.toJson
  simp only [List.map_cons, List.map_nil]
  rw [providers, directories, ← localUse]
  rfl

theorem AppConfig.Distinct.toJson {config : AppConfig}
    (distinct : config.Distinct) :
    (Json.obj config.toJson).DistinctKeys := by
  have pair : ∀ {key other : Text} {value value' : Json}, key ≠ other →
      value.DistinctKeys → value'.DistinctKeys →
        (Json.obj [(key, value), (other, value')]).DistinctKeys := by
    intro key other value value' different first second
    exact .obj _ (by simpa using different) (List.forall_mem_cons.mpr
      ⟨first, List.forall_mem_singleton.mpr second⟩)
  refine .obj _ (toJson_keys config).1 ?_
  unfold AppConfig.toJson
  simp only [List.forall_mem_cons]
  refine ⟨.int _, .arr _ ?_, .arr _ ?_, distinct.apiKey, distinct.token,
    .bool _, ?_, List.forall_mem_nil _⟩
  · rw [List.forall_mem_map]
    exact fun entry member =>
      pair (by decide) (.str _) (distinct.manifests entry member)
  · rw [List.forall_mem_map]
    exact fun directory _ => .str directory
  · cases config.localUse with
    | none => exact .null
    | some localUse => exact pair (by decide) (.str _) (.str _)

/-- **A configuration comes back** exactly if its strings do. -/
theorem restored_same_iff {config : AppConfig} (distinct : config.Distinct) :
    config.restored.Same config ↔
      ∀ s ∈ (Json.obj config.toJson).strings, Unpaired s := by
  unfold AppConfig.Same
  rw [restored_settled]
  exact Json.settled_reloaded_iff distinct.toJson

theorem iterate_distinct {value : Json} {items : List Json}
    (distinct : value.DistinctKeys) (iterates : value.iterate = .ok items) :
    ∀ item ∈ items, item.DistinctKeys := by
  cases distinct with
  | arr _ each =>
      cases iterates
      exact each
  | str value =>
      cases iterates
      rw [List.forall_mem_map]
      exact fun c _ => .str _
  | obj fields _ _ =>
      cases iterates
      rw [List.forall_mem_map]
      exact fun field _ => .str _
  | null => cases iterates
  | bool value => cases iterates
  | int value => cases iterates
  | float value => cases iterates

private theorem addPair_distinct {fields next : Dict} {pair : Json}
    (distinct : (Json.obj fields).DistinctKeys)
    (pairDistinct : pair.DistinctKeys) (adds : addPair fields pair = .ok next) :
    (Json.obj next).DistinctKeys := by
  unfold addPair at adds
  obtain ⟨items, iterates, adds⟩ := bind_eq_ok.mp adds
  have each := iterate_distinct pairDistinct iterates
  split at adds
  · rename_i key value
    cases adds
    cases distinct with
    | obj _ nodup fieldsDistinct =>
        refine .obj _ (Json.set_keys_nodup nodup key value) ?_
        intro field member
        rcases Json.set_fields member with rfl | earlier
        · exact each value (by simp)
        · exact fieldsDistinct field earlier
  · cases adds
  · cases adds

theorem dictOf_distinct {value : Json} {fields : Dict}
    (distinct : value.DistinctKeys) (isDict : dictOf value = .ok fields) :
    (Json.obj fields).DistinctKeys := by
  have added : ∀ (pairs : List Json) (before : Dict),
      (∀ pair ∈ pairs, pair.DistinctKeys) →
        (Json.obj before).DistinctKeys →
          pairs.foldlM addPair before = .ok fields →
            (Json.obj fields).DistinctKeys := by
    intro pairs
    induction pairs with
    | nil =>
        intro before _ distinct adds
        cases adds
        exact distinct
    | cons pair rest induction =>
        intro before each distinct adds
        obtain ⟨first, later⟩ := List.forall_mem_cons.mp each
        rw [List.foldlM_cons] at adds
        obtain ⟨next, addsOne, adds⟩ := bind_eq_ok.mp adds
        exact induction next later (addPair_distinct distinct first addsOne)
          adds
  have empty : (Json.obj []).DistinctKeys :=
    .obj [] List.nodup_nil (List.forall_mem_nil _)
  unfold dictOf at isDict
  split at isDict
  · cases isDict
    exact distinct
  · cases distinct with
    | arr _ each => exact added _ [] each empty isDict
  · cases isDict
    exact empty
  · cases isDict
  · cases isDict

private theorem item_distinct {value found : Json} {key : Text}
    (distinct : value.DistinctKeys) (isItem : item value key = .ok found) :
    found.DistinctKeys := by
  unfold item at isItem
  split at isItem
  · split at isItem
    · rename_i isFound
      cases isItem
      exact distinct.of_find isFound
    · cases isItem
  · cases isItem

theorem readEntries_distinct {items : List Json}
    {entries : List ProviderEntry} (distinct : ∀ data ∈ items,
      data.DistinctKeys)
    (reads : readEntries isPrintable items = .ok entries) :
    ∀ entry ∈ entries, (Json.obj entry.manifest).DistinctKeys := by
  induction items generalizing entries with
  | nil =>
      cases reads
      exact List.forall_mem_nil _
  | cons data rest induction =>
      obtain ⟨first, later⟩ := List.forall_mem_cons.mp distinct
      unfold readEntries at reads
      obtain ⟨entry, readsOne, reads⟩ := bind_eq_ok.mp reads
      obtain ⟨others, readsRest, reads⟩ := bind_eq_ok.mp reads
      cases reads
      refine List.forall_mem_cons.mpr ⟨?_, induction later readsRest⟩
      unfold readEntry at readsOne
      obtain ⟨_, _, readsOne⟩ := bind_eq_ok.mp readsOne
      obtain ⟨manifest, isManifest, readsOne⟩ := bind_eq_ok.mp readsOne
      obtain ⟨fields, isDict, readsOne⟩ := bind_eq_ok.mp readsOne
      cases readsOne
      exact dictOf_distinct (item_distinct first isManifest) isDict

private theorem get_distinct {data : Dict}
    (distinct : (Json.obj data).DistinctKeys)
    (key : Text) : (data.get key).DistinctKeys := by
  unfold Dict.get
  cases found : data.find key with
  | none => exact .null
  | some value => exact distinct.of_find found

private theorem fromJson_distinct {data : Dict} {config : AppConfig}
    (distinct : (Json.obj data).DistinctKeys)
    (reads : AppConfig.fromJson isPrintable data = .ok config) :
    config.Distinct := by
  unfold AppConfig.fromJson at reads
  obtain ⟨items, lists, reads⟩ := bind_eq_ok.mp reads
  obtain ⟨providers, readsEntries, reads⟩ := bind_eq_ok.mp reads
  obtain ⟨_, _, reads⟩ := bind_eq_ok.mp reads
  obtain ⟨_, _, reads⟩ := bind_eq_ok.mp reads
  obtain ⟨isProviders, isKey, isToken⟩ : config.providers = providers ∧
      config.apiKey = data.get "api_key" ∧
        config.token = data.get "token" := by
    dsimp only at reads
    split at reads
    · obtain ⟨_, _, reads⟩ := bind_eq_ok.mp reads
      cases reads
      exact ⟨rfl, rfl, rfl⟩
    · cases reads
      exact ⟨rfl, rfl, rfl⟩
  refine ⟨?_, isKey ▸ get_distinct distinct _,
    isToken ▸ get_distinct distinct _⟩
  rw [isProviders]
  refine readEntries_distinct ?_ readsEntries
  unfold listAt at lists
  cases found : data.find "providers" with
  | none =>
      rw [found] at lists
      cases lists
      exact List.forall_mem_nil _
  | some value =>
      rw [found] at lists
      exact iterate_distinct (distinct.of_find found) lists

theorem loadConfig_distinct {depth : Nat} {file : ConfigFile}
    {config : AppConfig}
    (loads : loadConfig isPrintable depth file = .ok config) :
    config.Distinct := by
  unfold loadConfig at loads
  split at loads
  · cases loads
    exact ⟨List.forall_mem_nil _, .null, .null⟩
  · split at loads
    · cases loads
    · split at loads
      · rename_i data read
        have distinct := Json.loads_distinctKeys read
        cases reads : AppConfig.fromJson isPrintable data with
        | error error =>
            rw [reads] at loads
            cases loads
        | ok config' =>
            rw [reads] at loads
            cases loads
            exact fromJson_distinct distinct reads
      · cases loads
      · cases loads

end

end SovereignInference.SipOpenaiProxy
