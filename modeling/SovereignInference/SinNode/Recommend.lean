import SovereignInference.Arithmetic.HalfEven
import SovereignInference.Python.FixedPoint
import Mathlib.Data.Prod.Lex

/-!
# Recommended models

A catalog model is offered with the largest quant that fits into the memory of
the node, with a score, and with a text that says why.  All numbers are exact:
nothing is rounded but where the code rounds.
-/

namespace SovereignInference.SinNode

open Python Effects Arithmetic

inductive Accelerator where
  | cuda
  | rocm
  | metal
  | vulkan
  | cpu
  deriving DecidableEq

structure GpuInfo where
  vramTotalGb : Option ℚ

structure HardwareProfile where
  ramTotalGb : ℚ
  ramAvailableGb : ℚ
  gpus : List GpuInfo
  accelerator : Accelerator
  unifiedMemory : Bool

structure MemoryEstimate where
  weightsGb : ℚ
  kvCacheGb : ℚ
  overheadGb : ℚ
  totalGb : ℚ
  deriving DecidableEq

structure QuantOption where
  name : Text
  bits : ℚ
  deriving DecidableEq

structure CatalogModel where
  modelId : Text
  displayName : Text
  paramsB : ℚ
  quants : List QuantOption
  tasks : List Text
  license : Text
  recommendedRuntimes : List Text
  defaultContext : ℤ
  nLayers : Option ℤ
  hiddenSize : Option ℤ
  nHeads : Option ℤ
  nKvHeads : Option ℤ
  commercialUse : Bool
  qualityScore : ℚ

structure Recommendation where
  modelId : Text
  displayName : Text
  runtime : Text
  quant : Text
  context : ℤ
  estimate : MemoryEstimate
  fits : Bool
  headroomRatio : ℚ
  predictedTps : ℚ
  qualityScore : ℚ
  score : ℚ
  why : Text
  tradeoffs : List Text
  deriving DecidableEq

/-- `round(x, places)`. -/
def roundTo (places : Nat) (x : ℚ) : ℚ :=
  halfEven (x * 10 ^ places) / 10 ^ places

/-- `f"{x:.{places}f}"`. -/
def fixedText (places : Nat) (x : ℚ) : Text :=
  let units := halfEven (x * 10 ^ places)
  let digits := natText (units.natAbs / 10 ^ places) ++
    0x2E :: leftPad places (natText (units.natAbs % 10 ^ places))
  if x < 0 then 0x2D :: digits else digits

/-- A number that is given and not zero. -/
def given {K : Type} [Zero K] [DecidableEq K] : Option K → Option K
  | some n => if n = 0 then none else some n
  | none => none

namespace HardwareProfile

/-- `g.vram_total_gb or 0.0`. -/
def vramOf (gpu : GpuInfo) : ℚ := (given gpu.vramTotalGb).getD 0

/-- The first of the GPUs with the most memory. -/
def primaryGpu (profile : HardwareProfile) : Option GpuInfo :=
  match profile.gpus with
  | [] => none
  | first :: rest => some (rest.foldl
      (fun best gpu => if vramOf best < vramOf gpu then gpu else best) first)

def usableMemoryGb (profile : HardwareProfile) : ℚ :=
  if profile.unifiedMemory then roundTo 1 (profile.ramTotalGb * (7 / 10))
  else
    let discrete := profile.accelerator = .cuda ∨ profile.accelerator = .rocm
    match profile.primaryGpu.bind fun gpu => given gpu.vramTotalGb with
    | some vram =>
        if discrete then vram else roundTo 1 profile.ramAvailableGb
    | none => roundTo 1 profile.ramAvailableGb

end HardwareProfile

def overheadGb : ℚ := 7 / 10

/-- The key-value cache of a model in a context. -/
def kvCacheGb (model : CatalogModel) (context : ℤ) : ℚ :=
  match given model.nLayers, given model.hiddenSize with
  | some nLayers, some hiddenSize =>
      let gqa : ℚ :=
        match given model.nKvHeads, given model.nHeads with
        | some nKvHeads, some nHeads => nKvHeads / nHeads
        | _, _ => 1
      2 * nLayers * hiddenSize * gqa * context * 2 / 10 ^ 9
  | _, _ => model.paramsB * (context / 4096) * (1 / 4)

/-- `estimate_memory` of a quant of the model. -/
def estimateFor (model : CatalogModel) (quant : QuantOption) (context : ℤ) :
    MemoryEstimate :=
  let weightsGb := model.paramsB * quant.bits / 8
  let kvCacheGb := kvCacheGb model context
  { weightsGb := weightsGb
    kvCacheGb := kvCacheGb
    overheadGb := overheadGb
    totalGb := weightsGb + kvCacheGb + overheadGb }

def nonCommercialMarkers : List Text :=
  ["-nc", "noncommercial", "non-commercial", "cc-by-nc"]

/-- Other texts count as `balanced`. -/
def speedWeightOf (latency : Text) : ℚ :=
  if latency = "low" then 45 / 100
  else if latency = "quality" then 10 / 100
  else 25 / 100

def baseTps : Accelerator → ℚ
  | .cuda => 220
  | .rocm => 170
  | .metal => 130
  | .vulkan => 90
  | .cpu => 28

def predictTps (paramsB : ℚ) (accelerator : Accelerator) (quantBits : ℚ) : ℚ :=
  if paramsB ≤ 0 then 0
  else
    let sizeFactor := 1 / paramsB
    let quantFactor := (45 / 10) / max quantBits 1
    roundTo 1 (baseTps accelerator * sizeFactor * quantFactor)

def qualitySaturationBits : ℚ := 85 / 10

/-- Quants from the fewest bits on. -/
def byBits (model : CatalogModel) : List QuantOption :=
  model.quants.insertionSort fun a b => a.bits ≤ b.bits

/-- Those of no more bits than help, or all of them. -/
def considered (model : CatalogModel) : List QuantOption :=
  let few := (byBits model).filter (·.bits ≤ qualitySaturationBits)
  if few = [] then byBits model else few

/-- The last quant of the list that fits. -/
def bestFit (model : CatalogModel) (usableGb : ℚ) (context : ℤ)
    (quants : List QuantOption) : Option (QuantOption × MemoryEstimate) :=
  quants.foldl (fun best quant =>
    let estimate := estimateFor model quant context
    if estimate.totalGb ≤ usableGb then some (quant, estimate) else best) none

def selectQuant (model : CatalogModel) (usableGb : ℚ) (context : ℤ) :
    Except PyExc (QuantOption × MemoryEstimate × Bool) :=
  match bestFit model usableGb context (considered model) with
  | some (quant, estimate) => .ok (quant, estimate, true)
  | none =>
      match byBits model with
      | [] => .error .indexError
      | smallest :: _ => .ok (smallest, estimateFor model smallest context, false)

def blendedScore (fits : Bool)
    (headroomRatio qualityScore predictedTps speedWeight : ℚ) : ℚ :=
  let fitComponent := min (headroomRatio / 2) 1
  let speedComponent := min (predictedTps / 200) 1
  let qualityWeight := max 0 (75 / 100 - speedWeight)
  let fitWeight := 1 - speedWeight - qualityWeight
  let blended := fitWeight * fitComponent + qualityWeight * qualityScore +
    speedWeight * speedComponent
  roundTo 4 ((if fits then 1 else 0) + blended)

/-- `sep.join(items)`. -/
def joinWith (sep : Text) : List Text → Text
  | [] => []
  | [item] => item
  | item :: rest => item ++ sep ++ joinWith sep rest

def buildWhy (model : CatalogModel) (quant : QuantOption) (context : ℤ)
    (fits : Bool) (usableGb : ℚ) : Text :=
  if fits then
    model.displayName ++ text " at " ++ quant.name ++ text " fits in " ++
      fixedText 1 usableGb ++ text " GB usable memory with a " ++
      intText context ++ text " token context; strong " ++
      joinWith "/" model.tasks ++ text " quality (score " ++
      fixedText 2 model.qualityScore ++ text ")."
  else
    model.displayName ++ text " is a strong " ++ joinWith "/" model.tasks ++
      text " option but its smallest quant (" ++ quant.name ++
      text ") does not fit in " ++ fixedText 1 usableGb ++ text " GB at " ++
      intText context ++ text " tokens."

section

-- `str.lower`
variable (lower : Text → Text)

def isNonCommercial (model : CatalogModel) : Bool :=
  !model.commercialUse || nonCommercialMarkers.any fun marker =>
    decide (marker <:+: lower model.license)

def buildTradeoffs (model : CatalogModel) (quant : QuantOption)
    (estimate : MemoryEstimate) (fits : Bool) (usableGb : ℚ) : List Text :=
  (if fits then [] else
    [text "Does not fit: needs ~" ++ fixedText 1 estimate.totalGb ++
      text " GB but only " ++ fixedText 1 usableGb ++ text " GB is usable " ++
      text "(reduce context, pick a smaller model, or add memory)."]) ++
  (if quant.bits ≤ 45 / 10 then
    [quant.name ++ text " is aggressively quantized; expect some quality " ++
      text "loss versus higher-bit quants."] else []) ++
  (if 7 ≤ model.paramsB then
    [text "Larger model: higher quality but slower tokens/sec and more " ++
      text "memory."] else []) ++
  (if isNonCommercial lower model then
    [text "License restricts commercial use; verify terms before " ++
      text "deploying."] else [])

/-- How much of what the model needs is there. -/
def headroomRatio (estimate : MemoryEstimate) (fits : Bool) (usableGb : ℚ) :
    ℚ :=
  if 0 < estimate.totalGb then
    let ratio := roundTo 3 (usableGb / estimate.totalGb)
    -- a ratio that rounds up to one is not shown where nothing fits
    if !fits ∧ 1 ≤ ratio then 999 / 1000 else ratio
  else 0

/-- The recommendation of one candidate. -/
def recommendModel (profile : HardwareProfile) (speedWeight : ℚ)
    (model : CatalogModel) : Except PyExc Recommendation := do
  let usableGb := profile.usableMemoryGb
  let context := model.defaultContext
  let (quant, estimate, fits) ← selectQuant model usableGb context
  let headroom := headroomRatio estimate fits usableGb
  let runtime := model.recommendedRuntimes.head?.getD "llama.cpp"
  let tps := predictTps model.paramsB profile.accelerator quant.bits
  return {
    modelId := model.modelId
    displayName := model.displayName
    runtime := runtime
    quant := quant.name
    context := context
    estimate := estimate
    fits := fits
    headroomRatio := headroom
    predictedTps := tps
    qualityScore := model.qualityScore
    score := blendedScore fits headroom model.qualityScore tps speedWeight
    why := buildWhy model quant context fits usableGb
    tradeoffs := buildTradeoffs lower model quant estimate fits usableGb }

/-- The key that is sorted by, greatest first. -/
def rankKey (entry : Recommendation) : Bool ×ₗ ℚ :=
  toLex (entry.fits, entry.score)

def eligible (task : Text) (commercialRequired : Bool)
    (catalog : List CatalogModel) : List CatalogModel :=
  catalog.filter fun model => decide (task ∈ model.tasks) &&
    (!commercialRequired || !isNonCommercial lower model)

def recommend (profile : HardwareProfile) (task : Text)
    (commercialRequired : Bool) (latency : Text) (topK : ℤ)
    (catalog : List CatalogModel) : Except PyExc (List Recommendation) := do
  if topK < 1 then throw .valueError
  let speedWeight := speedWeightOf latency
  let recommendations ← (eligible lower task commercialRequired catalog).mapM
    (recommendModel lower profile speedWeight)
  return (recommendations.insertionSort fun a b =>
    rankKey b ≤ rankKey a).take topK.toNat

end

end SovereignInference.SinNode
