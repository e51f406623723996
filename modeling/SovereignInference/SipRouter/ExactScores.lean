import SovereignInference.Arithmetic.Blend
import SovereignInference.Collections.StableSort
import SovereignInference.Python.FixedPoint
import SovereignInference.SipRouter.Scores

/-!
# Scores in exact arithmetic

Without rounding, the score of a provider is a blend of scores between zero and
one.  It falls with prices and latencies and rises with what is supported.  A
benchmark without a rate of tokens counts as two seconds a token, and only a
rate that is slower than that is scored below none.
-/

namespace SovereignInference.SipRouter.Exact

open Python Effects SipProtocol Arithmetic

/-- The number of a finite float. -/
def floatNumber (x : Float) : ℚ :=
  let (numerator, denominator) := floatScaled x 0
  let magnitude : ℚ := numerator / denominator
  if floatNegative x then -magnitude else magnitude

/-- `float(x)`, where infinities and NaNs are no numbers. -/
def toNumber : Json → Except PyExc ℚ
  | .bool value => .ok value.toInt
  | .int value => .ok value
  | .float x => if x.isFinite then .ok (floatNumber x) else .error .valueError
  | .str value => parseExact value
  | _ => .error .typeError

/-- `float(x.get(key, default))`. -/
def numberAt (value : Json) (key : Text) (default : ℚ) : Except PyExc ℚ :=
  match value.asDict with
  | some fields => (fields.find key).elim (.ok default) toNumber
  | none => .error .attributeError

def latencyAnchorMs : ℚ := 2000

def priceAnchor : ℚ := 100

def defaultTrust : ℚ := 1 / 2

def defaultUptime : ℚ := 1 / 2

/-- `1.0` if the string is listed under the key, or `0.0`. -/
def listedScore (entry : ProviderEntry) (key name : Text) :
    Except PyExc ℚ := do
  let listed := orElse (entry.manifest.get key) (.arr [])
  return if ← listed.contains name then 1 else 0

def modelFitScore (entry : ProviderEntry) (modelId : Option Text) :
    Except PyExc ℚ :=
  match modelId with
  | none =>
      let models := orElse (entry.manifest.get "models") (.arr [])
      .ok (if models.truthy then 1 else 0)
  | some modelId => listedScore entry "models" modelId

/-- `effective_ms`: measured, or read off the benchmark. -/
def effectiveMs (entry : ProviderEntry) (measuredLatencyMs : Option ℚ) :
    Except PyExc ℚ :=
  match measuredLatencyMs with
  | some measured => .ok (max measured 0)
  | none => do
      let benchmark := orElse (entry.manifest.get "benchmark") (.obj [])
      let ttft ← numberAt benchmark "ttft_ms" latencyAnchorMs
      let tps ← numberAt benchmark "tokens_per_second" 0
      let perTokenMs := if 0 < tps then 1000 / tps else latencyAnchorMs
      return ttft + perTokenMs

def latencyScore (entry : ProviderEntry) (measuredLatencyMs : Option ℚ) :
    Except PyExc ℚ := do
  let effective ← effectiveMs entry measuredLatencyMs
  return latencyAnchorMs / (latencyAnchorMs + max effective 0)

def priceScore (entry : ProviderEntry) : Except PyExc ℚ := do
  let pricing := orElse (entry.manifest.get "pricing") (.obj [])
  let inputRate ← numberAt pricing "input_per_1m" 0
  let outputRate ← numberAt pricing "output_per_1m" 0
  let blended := (inputRate + outputRate) / 2
  return priceAnchor / (priceAnchor + max blended 0)

def privacyScore (entry : ProviderEntry) (privacyMode : Option Text) :
    Except PyExc ℚ :=
  match privacyMode with
  | none => .ok 1
  | some privacyMode => listedScore entry "privacy_modes" privacyMode

abbrev Weights := List (Text × ℚ)

def defaultWeights : Weights :=
  [("model_fit", 25 / 100), ("expected_latency", 20 / 100),
    ("price", 15 / 100), ("receipt_trust", 15 / 100), ("uptime", 10 / 100),
    ("privacy_mode_match", 10 / 100)]

def subScores (fit latency price privacy : ℚ) : Weights :=
  [("model_fit", fit), ("expected_latency", latency), ("price", price),
    ("receipt_trust", defaultTrust), ("uptime", defaultUptime),
    ("privacy_mode_match", privacy)]

def scoreProvider (measuredLatencyMs : Option ℚ)
    (privacyMode modelId : Option Text) (weights : Option Weights)
    (entry : ProviderEntry) : Except PyExc ℚ := do
  let active := weights.getD defaultWeights
  let fit ← modelFitScore entry modelId
  let latency ← latencyScore entry measuredLatencyMs
  let price ← priceScore entry
  let privacy ← privacyScore entry privacyMode
  if totalWeight active ≤ 0 then return 0
  return weighted active (subScores fit latency price privacy) /
    totalWeight active

def scoreEach (score : ProviderEntry → Except PyExc ℚ) :
    List ProviderEntry → Except PyExc (List (ℚ × ProviderEntry))
  | [] => .ok []
  | entry :: rest => do
      let value ← score entry
      return (value, entry) :: (← scoreEach score rest)

/-- `rank_candidates`: by score, best first, equal scores in order. -/
def rankCandidates (measuredLatencyMs : Option ℚ)
    (privacyMode modelId : Option Text) (weights : Option Weights)
    (entries : List ProviderEntry) : Except PyExc (List ProviderEntry) := do
  let scored ← scoreEach
    (scoreProvider measuredLatencyMs privacyMode modelId weights) entries
  return (scored.insertionSort fun a b => b.1 ≤ a.1).map (·.2)

/-- `resolve` without strict manifests. -/
def resolve (registry : List ProviderEntry) (modelId : Text)
    (privacyMode : Option Text) (weights : Option Weights) :
    Except PyExc (List ProviderEntry) := do
  rankCandidates none privacyMode (some modelId) weights
    (← forModel modelId registry)

/-- The number a manifest states at a place. -/
def statedRate (manifest : Dict) (place : Text × Text) (default : ℚ) : ℚ :=
  (numberAt (orElse (manifest.get place.1) (.obj [])) place.2
    default).toOption.getD default

/-- The manifest lists the name under the key. -/
def lists (manifest : Dict) (key name : Text) : Bool :=
  ((manifest.get key).asList.getD []).any (Json.isStr name)

/-- Valid by the schema, without an infinity or a NaN among the rates. -/
structure Ratable (manifest : Dict) : Prop where
  valid : Schemas.providerManifest.valid (.obj manifest) = true
  finite : ∀ place ∈ rateFields, ∀ (fields : Dict) (x : Float),
    manifest.get place.1 = .obj fields →
      fields.find place.2 = some (.float x) → x.isFinite = true

variable {entry better worse : ProviderEntry}
  {measuredLatencyMs measured measured' : Option ℚ}
  {privacyMode modelId : Option Text} {weights : Option Weights}

theorem numberAt_isOk {fields : Dict} {key : Text} (default : ℚ)
    (isNumber : ∀ value, fields.find key = some value →
      TypeName.number.holds value = true)
    (finite : ∀ x, fields.find key = some (.float x) → x.isFinite = true) :
    ∃ q, numberAt (.obj fields) key default = .ok q := by
  unfold numberAt
  dsimp only [Json.asDict]
  cases found : fields.find key with
  | none => exact ⟨default, rfl⟩
  | some value =>
      have holds := isNumber value found
      cases value with
      | int rate => exact ⟨rate, rfl⟩
      | float x =>
          refine ⟨floatNumber x, ?_⟩
          simp only [Option.elim_some, toNumber, finite x found, if_true]
      | _ => simp [TypeName.holds] at holds

theorem statedRate_reads (ratable : Ratable entry.manifest)
    {place : Text × Text} (member : place ∈ rateFields) (default : ℚ) :
    numberAt (orElse (entry.manifest.get place.1) (.obj [])) place.2
      default = .ok (statedRate entry.manifest place default) := by
  have reads : ∃ q, numberAt (orElse (entry.manifest.get place.1) (.obj []))
      place.2 default = .ok q := by
    have noFields : ∃ q, numberAt (.obj []) place.2 default = .ok q :=
      numberAt_isOk default (by simp [Dict.find]) (by simp [Dict.find])
    rcases schema_rates ratable.valid place member with
      ⟨fields, isObject, isNumber⟩ | absent
    · rw [isObject]
      cases fields with
      | nil => exact noFields
      | cons field rest =>
          apply numberAt_isOk default isNumber
          intro x isFloat
          exact ratable.finite place member _ x isObject isFloat
    · rw [absent]
      exact noFields
  obtain ⟨q, reads⟩ := reads
  rw [statedRate, reads]
  rfl

theorem listedScore_eq (ratable : Ratable entry.manifest) {key : Text}
    (member : key ∈ [text "models", text "privacy_modes"]) (name : Text) :
    listedScore entry key name =
      .ok (if lists entry.manifest key name then 1 else 0) := by
  obtain ⟨items, found⟩ := schema_listed ratable.valid key member
  unfold listedScore lists
  rw [get_of_find found]
  cases items with
  | nil => rfl
  | cons item rest => rfl

/-- The latency that a score is about. -/
def latencyOf (manifest : Dict) (measuredLatencyMs : Option ℚ) : ℚ :=
  match measuredLatencyMs with
  | some measured => max measured 0
  | none =>
      let tps := statedRate manifest ("benchmark", "tokens_per_second") 0
      statedRate manifest ("benchmark", "ttft_ms") latencyAnchorMs +
        if 0 < tps then 1000 / tps else latencyAnchorMs

def priceOf (manifest : Dict) : ℚ :=
  (statedRate manifest ("pricing", "input_per_1m") 0 +
    statedRate manifest ("pricing", "output_per_1m") 0) / 2

/-- A measure as large as the anchor scores one half. -/
def decay (anchor x : ℚ) : ℚ := anchor / (anchor + max x 0)

/-- One if what is asked for is listed, or if nothing is asked for. -/
def matchScore (manifest : Dict) (key : Text) (asked : Option Text) : ℚ :=
  match asked with
  | none => 1
  | some name => if lists manifest key name then 1 else 0

theorem modelFitScore_eq (ratable : Ratable entry.manifest)
    (modelId : Option Text) :
    modelFitScore entry modelId =
      .ok (matchScore entry.manifest "models" modelId) := by
  cases modelId with
  | some modelId => exact listedScore_eq ratable (by simp) modelId
  | none =>
      obtain ⟨fields, same, required, _⟩ := Schema.record_valid ratable.valid
      cases same
      obtain ⟨models, found⟩ := required "models" (by decide)
      have listed := Schema.record_field ratable.valid rfl found
      obtain ⟨items, rfl⟩ := array_valid listed
      have nonempty := (Schema.allValid_iff _ _).mp listed (.minItems 1)
        (by simp)
      unfold modelFitScore
      rw [get_of_find found]
      cases items with
      | nil => simp [Schema.valid, Json.asList] at nonempty
      | cons item rest => rfl

theorem privacyScore_eq (ratable : Ratable entry.manifest)
    (privacyMode : Option Text) :
    privacyScore entry privacyMode =
      .ok (matchScore entry.manifest "privacy_modes" privacyMode) := by
  cases privacyMode with
  | none => rfl
  | some privacyMode => exact listedScore_eq ratable (by simp) privacyMode

theorem latencyScore_eq (ratable : Ratable entry.manifest)
    (measuredLatencyMs : Option ℚ) :
    latencyScore entry measuredLatencyMs = .ok (decay latencyAnchorMs
      (latencyOf entry.manifest measuredLatencyMs)) := by
  cases measuredLatencyMs with
  | some measured => rfl
  | none =>
      have ttft := statedRate_reads ratable
        (show (text "benchmark", text "ttft_ms") ∈ rateFields by
          simp [rateFields]) latencyAnchorMs
      have tps := statedRate_reads ratable
        (show (text "benchmark", text "tokens_per_second") ∈ rateFields by
          simp [rateFields]) 0
      simp only [latencyScore, effectiveMs, ttft, tps, ok_bind]
      rfl

theorem priceScore_eq (ratable : Ratable entry.manifest) :
    priceScore entry =
      .ok (decay priceAnchor (priceOf entry.manifest)) := by
  have input := statedRate_reads ratable
    (show (text "pricing", text "input_per_1m") ∈ rateFields by
      simp [rateFields]) 0
  have output := statedRate_reads ratable
    (show (text "pricing", text "output_per_1m") ∈ rateFields by
      simp [rateFields]) 0
  simp only [priceScore, input, output, ok_bind]
  rfl

/-- The scores of a manifest, by name. -/
def scoresOf (manifest : Dict) (measuredLatencyMs : Option ℚ)
    (privacyMode modelId : Option Text) : Weights :=
  subScores (matchScore manifest "models" modelId)
    (decay latencyAnchorMs (latencyOf manifest measuredLatencyMs))
    (decay priceAnchor (priceOf manifest))
    (matchScore manifest "privacy_modes" privacyMode)

theorem scoreProvider_eq (ratable : Ratable entry.manifest) :
    scoreProvider measuredLatencyMs privacyMode modelId weights entry =
      .ok (if totalWeight (weights.getD defaultWeights) ≤ 0 then 0
        else weighted (weights.getD defaultWeights)
          (scoresOf entry.manifest measuredLatencyMs privacyMode modelId) /
            totalWeight (weights.getD defaultWeights)) := by
  simp only [scoreProvider, modelFitScore_eq ratable,
    latencyScore_eq ratable, priceScore_eq ratable, privacyScore_eq ratable,
    ok_bind]
  split_ifs
  · rfl
  · rfl

theorem matchScore_unit (manifest : Dict) (key : Text)
    (asked : Option Text) :
    0 ≤ matchScore manifest key asked ∧ matchScore manifest key asked ≤ 1 := by
  unfold matchScore
  cases asked with
  | none => norm_num
  | some name =>
      dsimp only
      split_ifs <;> norm_num

theorem scoresOf_distinct (manifest : Dict) :
    ((scoresOf manifest measuredLatencyMs privacyMode modelId).map
      (·.1)).Nodup := by
  simp only [scoresOf, subScores, List.map_cons, List.map_nil]
  decide +kernel

theorem scoresOf_unit (manifest : Dict) :
    ∀ score ∈ scoresOf manifest measuredLatencyMs privacyMode modelId,
      0 ≤ score.2 ∧ score.2 ≤ 1 := by
  have latency := decay_unit (show 0 < latencyAnchorMs by
    norm_num [latencyAnchorMs]) (latencyOf manifest measuredLatencyMs)
  have price := decay_unit (show 0 < priceAnchor by
    norm_num [priceAnchor]) (priceOf manifest)
  simp only [scoresOf, subScores, List.forall_mem_cons]
  exact ⟨matchScore_unit manifest _ _, latency, price,
    by norm_num [defaultTrust], by norm_num [defaultUptime],
    matchScore_unit manifest _ _, by simp⟩

/-- Latencies in order: both measured, or both of benchmarks.  A rate of tokens
may rise from none only to half a token a second and beyond. -/
inductive NoSlower (better worse : Dict) : Option ℚ → Option ℚ → Prop
  | measured {faster slower : ℚ} (order : faster ≤ slower) :
      NoSlower better worse (some faster) (some slower)
  | benchmark
      (ttft : statedRate better ("benchmark", "ttft_ms") latencyAnchorMs ≤
        statedRate worse ("benchmark", "ttft_ms") latencyAnchorMs)
      (tps : statedRate worse ("benchmark", "tokens_per_second") 0 ≤
        statedRate better ("benchmark", "tokens_per_second") 0)
      (fromNone : statedRate worse ("benchmark", "tokens_per_second") 0 ≤ 0 →
        statedRate better ("benchmark", "tokens_per_second") 0 ≤ 0 ∨
          1 / 2 ≤ statedRate better ("benchmark", "tokens_per_second") 0) :
      NoSlower better worse none none

/-- What is asked for and listed by one manifest is listed by the other. -/
def Supports (better worse : Dict) (key : Text) (asked : Option Text) :
    Prop :=
  ∀ name, asked = some name → lists worse key name = true →
    lists better key name = true

/-- An offer that is no dearer, no slower and supports no less. -/
structure NoWorse (better worse : Dict) (measured measured' : Option ℚ)
    (privacyMode modelId : Option Text) : Prop where
  input : statedRate better ("pricing", "input_per_1m") 0 ≤
    statedRate worse ("pricing", "input_per_1m") 0
  output : statedRate better ("pricing", "output_per_1m") 0 ≤
    statedRate worse ("pricing", "output_per_1m") 0
  latency : NoSlower better worse measured measured'
  model : Supports better worse "models" modelId
  mode : Supports better worse "privacy_modes" privacyMode

/-- The time for one token falls when the rate rises. -/
theorem perToken_anti {slow fast : ℚ} (order : slow ≤ fast)
    (fromNone : slow ≤ 0 → fast ≤ 0 ∨ 1 / 2 ≤ fast) :
    (if 0 < fast then 1000 / fast else latencyAnchorMs) ≤
      if 0 < slow then 1000 / slow else latencyAnchorMs := by
  by_cases positive : 0 < slow
  · rw [if_pos (lt_of_lt_of_le positive order), if_pos positive]
    exact div_le_div_of_nonneg_left (by norm_num) positive order
  · rw [if_neg positive]
    rcases fromNone (not_lt.mp positive) with none | half
    · rw [if_neg (not_lt.mpr none)]
    · have above : 0 < fast := lt_of_lt_of_le (by norm_num) half
      rw [if_pos above, div_le_iff₀ above, latencyAnchorMs]
      linarith

theorem latencyOf_le {better worse : Dict}
    (noSlower : NoSlower better worse measured measured') :
    latencyOf better measured ≤ latencyOf worse measured' := by
  cases noSlower with
  | measured order => exact max_le_max_right 0 order
  | benchmark ttft tps fromNone =>
      exact add_le_add ttft (perToken_anti tps fromNone)

private theorem matchScore_le {better worse : Dict} {key : Text}
    {asked : Option Text} (supports : Supports better worse key asked) :
    matchScore worse key asked ≤ matchScore better key asked := by
  cases asked with
  | none => exact le_refl 1
  | some name =>
      unfold matchScore
      dsimp only
      by_cases listed : lists worse key name = true
      · rw [if_pos listed, if_pos (supports name rfl listed)]
      · rw [if_neg listed]
        split_ifs <;> norm_num

theorem scoresOf_noLower {better worse : Dict}
    (noWorse : NoWorse better worse measured measured' privacyMode modelId) :
    NoLower (scoresOf worse measured' privacyMode modelId)
      (scoresOf better measured privacyMode modelId) := by
  have blended : priceOf better ≤ priceOf worse := by
    have inputs := noWorse.input
    have outputs := noWorse.output
    unfold priceOf
    linarith
  have latency := decay_anti (show 0 < latencyAnchorMs by
    norm_num [latencyAnchorMs]) (latencyOf_le noWorse.latency)
  have price := decay_anti (show 0 < priceAnchor by
    norm_num [priceAnchor]) blended
  refine .cons ⟨rfl, matchScore_le noWorse.model⟩ (.cons ⟨rfl, latency⟩
    (.cons ⟨rfl, price⟩ ?_))
  exact .cons ⟨rfl, le_refl _⟩ (.cons ⟨rfl, le_refl _⟩
    (.cons ⟨rfl, matchScore_le noWorse.mode⟩ .nil))

/-- Weights of which none is negative and not all are zero. -/
structure Weighs (active : Weights) : Prop where
  nonneg : AllNonneg active
  positive : 0 < totalWeight active

theorem scoreProvider_unit (ratable : Ratable entry.manifest)
    (weighs : Weighs (weights.getD defaultWeights)) :
    ∃ score, scoreProvider measuredLatencyMs privacyMode modelId weights entry =
      .ok score ∧ 0 ≤ score ∧ score ≤ 1 := by
  refine ⟨_, scoreProvider_eq ratable, ?_⟩
  rw [if_neg (not_le.mpr weighs.positive)]
  exact blend_unit weighs.nonneg weighs.positive (scoresOf_distinct _)
    (scoresOf_unit _)

theorem scoreProvider_mono (ratable : Ratable better.manifest)
    (ratable' : Ratable worse.manifest)
    (weighs : Weighs (weights.getD defaultWeights))
    (noWorse : NoWorse better.manifest worse.manifest measured measured'
      privacyMode modelId) {score score' : ℚ}
    (scores : scoreProvider measured privacyMode modelId weights better =
      .ok score)
    (scores' : scoreProvider measured' privacyMode modelId weights worse =
      .ok score') : score' ≤ score := by
  rw [scoreProvider_eq ratable, Except.ok.injEq,
    if_neg (not_le.mpr weighs.positive)] at scores
  rw [scoreProvider_eq ratable', Except.ok.injEq,
    if_neg (not_le.mpr weighs.positive)] at scores'
  rw [← scores, ← scores']
  exact blend_mono weighs.nonneg weighs.positive (scoresOf_noLower noWorse)

/-- The score that an entry is ranked by. -/
def rankScore (privacyMode : Option Text) (modelId : Text)
    (weights : Option Weights) (entry : ProviderEntry) : ℚ :=
  (scoreProvider none privacyMode (some modelId) weights
    entry).toOption.getD 0

/-- The entries of a registry that advertise the model. -/
def advertising (modelId : Text) (registry : List ProviderEntry) :
    List ProviderEntry :=
  registry.filter fun entry => lists entry.manifest "models" modelId

theorem forModel_eq {modelId : Text} {registry : List ProviderEntry}
    (ratable : ∀ entry ∈ registry, Ratable entry.manifest) :
    forModel modelId registry = .ok (advertising modelId registry) := by
  induction registry with
  | nil => rfl
  | cons entry rest induction =>
      obtain ⟨first, others⟩ := List.forall_mem_cons.mp ratable
      obtain ⟨items, found⟩ := schema_listed first.valid "models" (by simp)
      have serves : ((entry.manifest.find "models").getD (.arr [])).contains
          modelId = .ok (lists entry.manifest "models" modelId) := by
        rw [found, lists, get_of_find found]
        rfl
      unfold forModel
      simp only [serves, induction others, ok_bind]
      unfold advertising
      rw [List.filter_cons]
      rfl

theorem scoreEach_eq {score : ProviderEntry → Except PyExc ℚ}
    {value : ProviderEntry → ℚ} {entries : List ProviderEntry}
    (scores : ∀ entry ∈ entries, score entry = .ok (value entry)) :
    scoreEach score entries =
      .ok (entries.map fun entry => (value entry, entry)) := by
  induction entries with
  | nil => rfl
  | cons entry rest induction =>
      obtain ⟨first, others⟩ := List.forall_mem_cons.mp scores
      simp only [scoreEach, first, induction others, ok_bind]
      rfl

/-- Entries by their scores, best first. -/
def byScore (value : ProviderEntry → ℚ) (entries : List ProviderEntry) :
    List ProviderEntry :=
  entries.insertionSort fun a b => value b ≤ value a

theorem resolve_sorts {registry : List ProviderEntry}
    (ratable : ∀ entry ∈ registry, Ratable entry.manifest)
    (modelId : Text) (privacyMode : Option Text) (weights : Option Weights) :
    resolve registry modelId privacyMode weights =
      .ok (byScore (rankScore privacyMode modelId weights)
        (advertising modelId registry)) := by
  have scores : ∀ entry ∈ advertising modelId registry,
      scoreProvider none privacyMode (some modelId) weights entry =
        .ok (rankScore privacyMode modelId weights entry) := by
    intro entry member
    have valid := ratable entry (List.mem_of_mem_filter member)
    rw [rankScore, scoreProvider_eq valid]
    rfl
  have projected := List.map_insertionSort
    (fun a b : ℚ × ProviderEntry => b.1 ≤ a.1)
    (fun a b => rankScore privacyMode modelId weights b ≤
      rankScore privacyMode modelId weights a)
    Prod.snd ((advertising modelId registry).map fun entry =>
      (rankScore privacyMode modelId weights entry, entry)) (by
        intro a inFirst b inSecond
        obtain ⟨entry, _, rfl⟩ := List.mem_map.mp inFirst
        obtain ⟨other, _, rfl⟩ := List.mem_map.mp inSecond
        exact Iff.rfl)
  unfold resolve rankCandidates
  simp only [forModel_eq ratable, scoreEach_eq scores, ok_bind]
  change Except.ok _ = _
  rw [projected, List.map_map]
  change Except.ok (List.insertionSort _ ((advertising modelId registry).map
    fun entry => entry)) = _
  rw [List.map_id']
  rfl

section Order

variable (value : ProviderEntry → ℚ) (entries : List ProviderEntry)

instance : Std.Total fun a b : ProviderEntry => value b ≤ value a :=
  ⟨fun a b => le_total (value b) (value a)⟩

instance : IsTrans ProviderEntry fun a b => value b ≤ value a :=
  ⟨fun _ _ _ first second => le_trans second first⟩

theorem byScore_perm : (byScore value entries).Perm entries :=
  List.perm_insertionSort _ entries

theorem byScore_sorted :
    (byScore value entries).Pairwise fun a b => value b ≤ value a :=
  List.pairwise_insertionSort _ entries

/-- Entries of one score stay in their order. -/
theorem byScore_stable (score : ℚ) :
    (byScore value entries).filter (value · = score) =
      entries.filter (value · = score) := by
  unfold byScore
  rw [Collections.filter_insertionSort]
  have same : ∀ entry ∈ entries.filter (value · = score),
      value entry = score := by
    intro entry member
    simpa using (List.mem_filter.mp member).2
  have sorted : (entries.filter (value · = score)).Pairwise
      fun a b => value b ≤ value a := by
    apply List.pairwise_of_forall_mem_list
    intro a first b second
    rw [same a first, same b second]
  exact List.Pairwise.insertionSort_eq sorted

end Order

/-- **Providers are ranked by scores between zero and one, which better offers
never lower.** -/
theorem ranked_by_scores {registry : List ProviderEntry}
    (ratable : ∀ entry ∈ registry, Ratable entry.manifest)
    {weights : Option Weights} (weighs : Weighs (weights.getD defaultWeights))
    (privacyMode modelId : Option Text) :
    (∀ entry ∈ registry, ∀ measuredLatencyMs, ∃ score,
      scoreProvider measuredLatencyMs privacyMode modelId weights entry =
        .ok score ∧ 0 ≤ score ∧ score ≤ 1) ∧
    (∀ better ∈ registry, ∀ worse ∈ registry, ∀ measured measured',
      NoWorse better.manifest worse.manifest measured measured' privacyMode
        modelId → ∀ score score',
      scoreProvider measured privacyMode modelId weights better =
        .ok score →
      scoreProvider measured' privacyMode modelId weights worse =
        .ok score' → score' ≤ score) ∧
    ∀ asked privacyMode (weights : Option Weights), ∃ ranked,
      resolve registry asked privacyMode weights = .ok ranked ∧
      ranked.Perm (advertising asked registry) ∧
      (ranked.Pairwise fun a b =>
        rankScore privacyMode asked weights b ≤
          rankScore privacyMode asked weights a) ∧
      ∀ score, ranked.filter (rankScore privacyMode asked weights · = score) =
        (advertising asked registry).filter
          (rankScore privacyMode asked weights · = score) := by
  refine ⟨?_, ?_, ?_⟩
  · intro entry member measuredLatencyMs
    exact scoreProvider_unit (ratable entry member) weighs
  · intro better inRegistry worse inRegistry' measured measured' noWorse
      score score' scores scores'
    exact scoreProvider_mono (ratable better inRegistry)
      (ratable worse inRegistry') weighs noWorse scores scores'
  · intro asked privacyMode weights
    exact ⟨_, resolve_sorts ratable asked privacyMode weights,
      byScore_perm _ _, byScore_sorted _ _, byScore_stable _ _⟩

/-- A provider with a benchmark of this many tokens per second. -/
def benchmarked (tokensPerSecond : Float) : ProviderEntry where
  baseUrl := "https://node.example"
  manifest :=
    [("schema", .str "sip-ai.provider_manifest.v1"),
      ("provider_pubkey", .str
        (text "ed25519:" ++ List.replicate 43 0x41)),
      ("node_type", .str "sovereign-node"), ("models", .arr [.str "m"]),
      ("runtime_adapters", .arr [.str "ollama"]),
      ("pricing", .obj [("unit", .str "test")]), ("max_context", .int 4096),
      ("logging_policy", .str "no_prompt_logging"),
      ("privacy_modes", .arr [.str "direct"]),
      ("benchmark", .obj [("tokens_per_second", .float tokensPerSecond)]),
      ("published_at", .str "2026-01-01T00:00:00Z"),
      ("signature", .str (text "ed25519:" ++ List.replicate 86 0x41))]

theorem benchmarked_ratable {tokensPerSecond : Float}
    (finite : tokensPerSecond.isFinite = true)
    (valid : Schemas.providerManifest.valid
      (.obj (benchmarked tokensPerSecond).manifest) = true) :
    Ratable (benchmarked tokensPerSecond).manifest where
  valid := valid
  finite := by
    intro place member fields x isObject isFloat
    simp only [rateFields, List.mem_cons, List.not_mem_nil, or_false]
      at member
    rcases member with rfl | rfl | rfl | rfl
    · cases isObject
      cases isFloat
    · cases isObject
      cases isFloat
      exact finite
    · cases isObject
      cases isFloat
    · cases isObject
      cases isFloat

theorem defaultWeights_weighs : Weighs defaultWeights := by
  constructor
  · simp only [AllNonneg, defaultWeights, List.forall_mem_cons]
    norm_num
  · norm_num [totalWeight, defaultWeights]

theorem ranked_by_scores_of_two :
    ∃ ranked, resolve [benchmarked 0.25, benchmarked 50] "m" none none =
        .ok ranked ∧
      ranked.Perm (advertising "m" [benchmarked 0.25, benchmarked 50]) := by
  have ratable : ∀ entry ∈ [benchmarked 0.25, benchmarked 50],
      Ratable entry.manifest := by
    simp only [List.forall_mem_cons]
    exact ⟨benchmarked_ratable (by decide +kernel) (by decide +kernel),
      benchmarked_ratable (by decide +kernel) (by decide +kernel), by simp⟩
  obtain ⟨_, _, resolves⟩ := @ranked_by_scores _ ratable none
    defaultWeights_weighs none (some "m")
  obtain ⟨ranked, isRanked, perm, _⟩ := resolves "m" none none
  exact ⟨ranked, isRanked, perm⟩

/-- A benchmark of no tokens per second is scored above one of a quarter. -/
theorem none_above_a_quarter :
    Ratable (benchmarked 0).manifest ∧ Ratable (benchmarked 0.25).manifest ∧
      Weighs defaultWeights ∧
      ∃ score score', scoreProvider none none (some "m") none
          (benchmarked 0) = .ok score ∧
        scoreProvider none none (some "m") none (benchmarked 0.25) =
          .ok score' ∧ score' < score := by
  have first : Ratable (benchmarked 0).manifest :=
    benchmarked_ratable (by decide +kernel) (by decide +kernel)
  have second : Ratable (benchmarked 0.25).manifest :=
    benchmarked_ratable (by decide +kernel) (by decide +kernel)
  refine ⟨first, second, defaultWeights_weighs, _, _, scoreProvider_eq first,
    scoreProvider_eq second, ?_⟩
  decide +kernel

end SovereignInference.SipRouter.Exact
