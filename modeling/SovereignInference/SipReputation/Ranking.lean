import SovereignInference.SipDiscovery.Directory
import SovereignInference.SipReputation.Store

/-!
# Ranking of live providers

Every discovered provider may be asked for its health.  Those that do not
answer, or answer for another key or without a model of the manifest, are
dropped; the others are sorted by reputation, latency and advertised speed.
-/

namespace SovereignInference.SipReputation

open Python Effects SipProtocol SipDiscovery

/-- What the client gets: a transport error, a url that it refuses, or a
response with what reading its body as JSON gives. -/
inductive Fetched where
  | failed
  | invalidUrl
  | response (status : Nat) (json : Except PyExc Json)

/-- An exception that is not caught: `httpx.InvalidURL` is no `HTTPError`. -/
inductive RankError where
  | invalidUrl
  | raised (error : PyExc)

structure HealthStatus where
  reachable : Bool
  pubkeyMatch : Bool
  modelMatch : Bool
  latencyMs : Option Float

def HealthStatus.ok (status : HealthStatus) : Bool :=
  status.reachable && status.pubkeyMatch && status.modelMatch

/-- The body of a successful response, or nothing if an exception is caught. -/
def healthBody : Fetched → Except RankError (Option Json)
  | .failed => .ok none
  | .invalidUrl => .error .invalidUrl
  | .response status json =>
      if 200 ≤ status ∧ status < 300 then
        match json with
        | .ok body => .ok (some body)
        | .error error =>
            if error.isValueError then .ok none else .error (.raised error)
      else .ok none

/-- Lists and dicts have no hash. -/
def isHashable : Json → Bool
  | .arr _ | .obj _ => false
  | _ => true

/-- `set(x)`. -/
def toSet (items : List Json) : Except PyExc (List Json) :=
  if items.all isHashable then .ok items else .error .typeError

/-- `bool(set(models) & set(live))`. -/
def meets (models live : List Json) : Except PyExc Bool := do
  let models ← toSet models
  let live ← toSet live
  return models.any fun model => live.any model.pyEq

section

variable (P : Platform)

/-- `body.get("models") or []`. -/
def liveModels (body : Dict) : Json :=
  if (body.get "models").truthy then body.get "models" else .arr []

def modelMatch (provider : DiscoveredProvider) (body : Dict) :
    Except PyExc Bool :=
  match liveModels body with
  | .arr live => do meets (← provider.models) live
  | _ => .ok false

/-- The status that a body with a dict gives. -/
def statusOf (provider : DiscoveredProvider) (body : Dict)
    (latencyMs : Float) : Except PyExc HealthStatus := do
  let pubkey ← provider.providerPubkey P
  return {
    reachable := true
    pubkeyMatch := (body.get "provider_pubkey").isStr pubkey
    modelMatch := ← modelMatch provider body
    latencyMs := some latencyMs }

/-- `check`, where the clock is read before and after the request. -/
def check (provider : DiscoveredProvider) (fetched : Fetched)
    (start stop : Float) : Except RankError HealthStatus := do
  match ← healthBody fetched with
  | none => return ⟨false, false, false, none⟩
  | some body =>
      let latencyMs := (stop - start) * 1000
      match body.asDict with
      | none => return ⟨true, false, false, some latencyMs⟩
      | some fields =>
          (statusOf P provider fields latencyMs).mapError .raised

end

structure RankedProvider where
  provider : DiscoveredProvider
  reputation : ReputationScore Float
  score : Float
  health : Option HealthStatus

def advertisedTps (provider : DiscoveredProvider) : Except PyExc Float :=
  match (provider.manifest.get "benchmark").asDict with
  | some benchmark =>
      match ((benchmark.find "tokens_per_second").getD (.float 0)).toFloat with
      | .ok tps => .ok tps
      | .error error =>
          if error = .typeError ∨ error.isValueError then .ok 0
          else .error error
  | none => .ok 0

/-- `float("inf")`. -/
def infinity : Float := Float.ofBits 0x7FF0000000000000

def latencyFor (reputation : ReputationScore Float)
    (health : Option HealthStatus) : Float :=
  match health.bind (·.latencyMs) with
  | some latency => latency
  | none => reputation.avgLatencyMs.getD infinity

/-- The tuple that is sorted by. -/
abbrev SortKey := Float × Float × Float

def sortKey (ranked : RankedProvider) : Except PyExc SortKey := do
  return (-ranked.score, latencyFor ranked.reputation ranked.health,
    -(← advertisedTps ranked.provider))

/-- `x < y` for tuples: the first items that differ are compared. -/
def SortKey.below (x y : SortKey) : Bool :=
  if x.1 != y.1 then x.1 < y.1
  else if x.2.1 != y.2.1 then x.2.1 < y.2.1
  else x.2.2 < y.2.2

/-- A provider, and what happens when its health is asked for. -/
structure Visit where
  provider : DiscoveredProvider
  fetched : Fetched
  start : Float
  stop : Float

section

variable (P : Platform) (store : Option (Entries Float)) (probed : Bool)

/-- One turn of the loop: nothing if the provider is dropped. -/
def rankVisit (visit : Visit) : Except RankError (Option RankedProvider) := do
  let pubkey ← (visit.provider.providerPubkey P).mapError .raised
  let reputation ← (score floatNumbers store pubkey).mapError .raised
  if probed then
    let health ← check P visit.provider visit.fetched visit.start visit.stop
    if health.ok then
      return some ⟨visit.provider, reputation, reputation.score, some health⟩
    else return none
  else return some ⟨visit.provider, reputation, reputation.score, none⟩

/-- `ranked.sort`, which makes every key first. -/
def sortRanked (ranked : List RankedProvider) :
    Except PyExc (List RankedProvider) := do
  let keyed ← ranked.mapM fun entry => do return (← sortKey entry, entry)
  return (keyed.insertionSort fun a b => !SortKey.below b.1 a.1).map (·.2)

def rankProviders (visits : List Visit) :
    Except RankError (List RankedProvider) := do
  let ranked ← visits.mapM (rankVisit P store probed)
  (sortRanked (ranked.filterMap id)).mapError .raised

end

end SovereignInference.SipReputation
