import SovereignInference.SipProtocol.Artifacts
import Mathlib.Data.List.Sort

/-!
# Ranked providers of a model

A registry lists providers with their manifests.  Those that advertise a model
are ranked by a weighted blend of scores, best first and in the order of the
registry where the scores are equal.
-/

namespace SovereignInference.SipRouter

open Python Effects SipProtocol

/-- A known provider. -/
structure ProviderEntry where
  baseUrl : Text
  manifest : Dict

/-- `x or default`. -/
def orElse (value default : Json) : Json :=
  if value.truthy then value else default

/-- `float(x.get(key, default))`. -/
def numberAt (value : Json) (key : Text) (default : Float) :
    Except PyExc Float :=
  match value.asDict with
  | some fields => ((fields.find key).getD (.float default)).toFloat
  | none => .error .attributeError

def latencyAnchorMs : Float := 2000

def priceAnchor : Float := 100

def defaultTrust : Float := 0.5

def defaultUptime : Float := 0.5

/-- `1.0` if the string is listed under the key, or `0.0`. -/
def listedScore (entry : ProviderEntry) (key name : Text) :
    Except PyExc Float := do
  let listed := orElse (entry.manifest.get key) (.arr [])
  return if ← listed.contains name then 1 else 0

/-- `_model_fit_score`: without a model, any provider of one is a fit. -/
def modelFitScore (entry : ProviderEntry) (modelId : Option Text) :
    Except PyExc Float :=
  match modelId with
  | none =>
      let models := orElse (entry.manifest.get "models") (.arr [])
      .ok (if models.truthy then 1 else 0)
  | some modelId => listedScore entry "models" modelId

/-- `_latency_score` without a measured latency. -/
def latencyScore (entry : ProviderEntry) : Except PyExc Float := do
  let benchmark := orElse (entry.manifest.get "benchmark") (.obj [])
  let ttft ← numberAt benchmark "ttft_ms" latencyAnchorMs
  let tps ← numberAt benchmark "tokens_per_second" 0
  let perTokenMs := if 0 < tps then 1000 / tps else latencyAnchorMs
  let effectiveMs := ttft + perTokenMs
  return latencyAnchorMs / (latencyAnchorMs + floatMax effectiveMs 0)

def priceScore (entry : ProviderEntry) : Except PyExc Float := do
  let pricing := orElse (entry.manifest.get "pricing") (.obj [])
  let inputRate ← numberAt pricing "input_per_1m" 0
  let outputRate ← numberAt pricing "output_per_1m" 0
  let blended := (inputRate + outputRate) / 2
  return priceAnchor / (priceAnchor + floatMax blended 0)

def privacyScore (entry : ProviderEntry) (privacyMode : Option Text) :
    Except PyExc Float :=
  match privacyMode with
  | none => .ok 1
  | some privacyMode => listedScore entry "privacy_modes" privacyMode

abbrev Weights := List (Text × Float)

def defaultWeights : Weights :=
  [("model_fit", 0.25), ("expected_latency", 0.20), ("price", 0.15),
    ("receipt_trust", 0.15), ("uptime", 0.10), ("privacy_mode_match", 0.10)]

/-- `weights.get(key, 0.0)`. -/
def weightOf (weights : Weights) (key : Text) : Float :=
  ((weights.find? (·.1 = key)).map (·.2)).getD 0

/-- `score_provider` without a measured latency. -/
def scoreProvider (privacyMode modelId : Option Text)
    (weights : Option Weights) (entry : ProviderEntry) :
    Except PyExc Float := do
  let active := weights.getD defaultWeights
  let subScores : Weights :=
    [("model_fit", ← modelFitScore entry modelId),
      ("expected_latency", ← latencyScore entry),
      ("price", ← priceScore entry), ("receipt_trust", defaultTrust),
      ("uptime", defaultUptime),
      ("privacy_mode_match", ← privacyScore entry privacyMode)]
  let totalWeight := floatSum (active.map (·.2))
  if totalWeight ≤ 0 then return 0
  let weighted := floatSum
    (subScores.map fun score => weightOf active score.1 * score.2)
  return weighted / totalWeight

def scoreEach (score : ProviderEntry → Except PyExc Float) :
    List ProviderEntry → Except PyExc (List (Float × ProviderEntry))
  | [] => .ok []
  | entry :: rest => do
      let value ← score entry
      return (value, entry) :: (← scoreEach score rest)

/-- `rank_candidates`: by score, best first, equal scores in order. -/
def rankCandidates (privacyMode modelId : Option Text)
    (weights : Option Weights) (entries : List ProviderEntry) :
    Except PyExc (List ProviderEntry) := do
  let scored ← scoreEach (scoreProvider privacyMode modelId weights) entries
  return (scored.insertionSort fun a b => ¬ a.1 < b.1).map (·.2)

/-- `for_model`: the entries whose manifest advertises the model. -/
def forModel (modelId : Text) :
    List ProviderEntry → Except PyExc (List ProviderEntry)
  | [] => .ok []
  | entry :: rest => do
      let models := (entry.manifest.find "models").getD (.arr [])
      let serves ← models.contains modelId
      let others ← forModel modelId rest
      return if serves then entry :: others else others

/-- `resolve` without strict manifests. -/
def resolve (registry : List ProviderEntry) (modelId : Text)
    (privacyMode : Option Text) (weights : Option Weights) :
    Except PyExc (List ProviderEntry) := do
  rankCandidates privacyMode (some modelId) weights
    (← forModel modelId registry)

/-- `xs[:n]`. -/
def takeTo {α : Type} (n : Int) (items : List α) : List α :=
  items.take (if n < 0 then items.length + n else n).toNat

theorem forModel_sublist {modelId : Text}
    {registry found : List ProviderEntry}
    (finds : forModel modelId registry = .ok found) :
    found.Sublist registry := by
  induction registry generalizing found with
  | nil =>
      cases finds
      exact List.Sublist.slnil
  | cons entry rest induction =>
      unfold forModel at finds
      obtain ⟨serves, _, finds⟩ := bind_eq_ok.mp finds
      obtain ⟨others, tail, finds⟩ := bind_eq_ok.mp finds
      cases serves with
      | true =>
          cases finds
          exact (induction tail).cons_cons entry
      | false =>
          cases finds
          exact (induction tail).cons entry

private theorem scoreEach_entries {score : ProviderEntry → Except PyExc Float}
    {entries : List ProviderEntry} {scored : List (Float × ProviderEntry)}
    (scores : scoreEach score entries = .ok scored) :
    scored.map (·.2) = entries := by
  induction entries generalizing scored with
  | nil =>
      cases scores
      rfl
  | cons entry rest induction =>
      obtain ⟨score, _, scores⟩ := bind_eq_ok.mp scores
      obtain ⟨others, tail, scores⟩ := bind_eq_ok.mp scores
      cases scores
      rw [List.map_cons, induction tail]

private theorem rankCandidates_perm {entries ranked : List ProviderEntry}
    {privacyMode modelId : Option Text} {weights : Option Weights}
    (ranks : rankCandidates privacyMode modelId weights entries =
      .ok ranked) : ranked.Perm entries := by
  obtain ⟨scored, scores, ranks⟩ := bind_eq_ok.mp ranks
  cases ranks
  rw [← scoreEach_entries scores]
  exact (List.perm_insertionSort _ scored).map _

theorem resolve_mem {registry candidates : List ProviderEntry}
    {modelId : Text} {privacyMode : Option Text} {weights : Option Weights}
    (resolves : resolve registry modelId privacyMode weights = .ok candidates)
    {candidate : ProviderEntry} (member : candidate ∈ candidates) :
    candidate ∈ registry := by
  obtain ⟨found, finds, ranks⟩ := bind_eq_ok.mp resolves
  have inFound := (rankCandidates_perm ranks).mem_iff.mp member
  exact (forModel_sublist finds).subset inFound

end SovereignInference.SipRouter
