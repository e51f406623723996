import SovereignInference.Effects.Program
import SovereignInference.Python.JsonReading

/-!
# Deployments on Akash

A deployment is a sequence of commands: create it on the chain, pick a bid,
create a lease, send the manifest; and close it again.  The command line, the
file with the manifest and its removal are called operations.
-/

namespace SovereignInference.SipProviderAkash

open Python Effects

/-- A `ComputeError`, with what its message tells. -/
inductive ComputeError where
  | notJson (context out : Text)
  | unexpectedShape (context : Text) (value : Json)
  | failedOnChain (context : Text) (code : Int) (rawLog : Json)
  | noDseq (created : Dict)
  | noBids (dseq : Text)
  | missingCoordinates (id : Text)
  | closeFailed (dseq : Text)

/-- What a command that does not succeed raises. -/
inductive CommandError where
  | subprocessError
  | osError
  | other (error : PyExc)

inductive AkashExc where
  | computeError (error : ComputeError)
  | command (error : CommandError)
  | raised (error : PyExc)

inductive AkashOp where
  | mkstemp
  | safeDump (path : Text) (sdl : Dict)
  | run (argv : List Text)
  | unlink (path : Text)

abbrev AkashSig : Signature where
  Op := AkashOp
  Ans := fun
    | .mkstemp => Except PyExc Text
    | .safeDump _ _ => Except PyExc Unit
    | .run _ => Except CommandError Text
    | .unlink _ => Except PyExc Unit

abbrev AkashProg := Prog AkashSig AkashExc

/-- The outcome of a helper or of the file system. -/
def lift {α : Type} : Except PyExc α → AkashProg α
  | .ok value => .ret value
  | .error error => .raise (.raised error)

/-- The output of a command. -/
def output : Except CommandError Text → AkashProg Text
  | .ok out => .ret out
  | .error error => .raise (.command error)

def mkstemp : AkashProg Text := .call .mkstemp lift

def safeDump (path : Text) (sdl : Dict) : AkashProg Unit :=
  .call (.safeDump path sdl) lift

def run (argv : List Text) : AkashProg Text := .call (.run argv) output

def unlink (path : Text) : AkashProg Unit := .call (.unlink path) lift

/-- `try: ... finally: ...`. -/
def tryFinally {α : Type} (body : AkashProg α) (cleanup : AkashProg Unit) :
    AkashProg α :=
  (body.tryCatch fun error => cleanup.bind fun _ => .raise error).bind
    fun value => cleanup.bind fun _ => .ret value

structure InferenceSpec where
  model : Text
  image : Text
  port : Int := 8080
  gpu : Bool := true
  gpuModel : Option Text := none
  cpu : Text := "1"
  memory : Text := "8Gi"
  command : Option (List Text) := none
  env : List (Text × Text) := []
  inputPer1m : Float := 0
  outputPer1m : Float := 0
  pricingUnit : Text := "usdc"

inductive DeploymentStatus where
  | pending
  | deploying
  | running
  | failed
  | closed

structure Deployment where
  provider : Text
  id : Text
  model : Text
  status : DeploymentStatus
  endpoint : Option Text := none
  pricingUnit : Option Text := none
  inputPer1m : Option Float := none
  outputPer1m : Option Float := none
  raw : Dict := []

def sdlService (spec : InferenceSpec) : Dict :=
  let service : Dict := [("image", .str spec.image),
    ("expose", .arr [.obj [("port", .int spec.port), ("as", .int 80),
      ("to", .arr [.obj [("global", .bool true)]])]])]
  let service := if spec.env = [] then service
    else service.set "env" (.arr (spec.env.map fun (key, value) =>
      .str (key ++ "=" ++ value)))
  match spec.command with
  | some (first :: rest) =>
      service.set "command" (.arr ((first :: rest).map .str))
  | _ => service

def sdlGpu (spec : InferenceSpec) : Dict :=
  match spec.gpuModel with
  | some (c :: rest) => [("units", .int 1), ("attributes", .obj [("vendor",
      .obj [("nvidia", .arr [.obj [("model", .str (c :: rest))]])])])]
  | _ => [("units", .int 1)]

def sdlResources (spec : InferenceSpec) : Dict :=
  let resources : Dict := [("cpu", .obj [("units", .str spec.cpu)]),
    ("memory", .obj [("size", .str spec.memory)]),
    ("storage", .obj [("size", .str "16Gi")])]
  if spec.gpu then resources.set "gpu" (.obj (sdlGpu spec)) else resources

/-- The manifest of one service at the default price. -/
def buildSdl (spec : InferenceSpec) : Dict :=
  let service : Text := "sip-gateway"
  let placement : Text := "sovereign"
  [("version", .str "2.0"),
    ("services", .obj [(service, .obj (sdlService spec))]),
    ("profiles", .obj [
      ("compute", .obj [(service,
        .obj [("resources", .obj (sdlResources spec))])]),
      ("placement", .obj [(placement, .obj [("pricing", .obj [(service,
        .obj [("denom", .str "uakt"), ("amount", .int 10000)])])])])]),
    ("deployment", .obj [(service, .obj [(placement,
      .obj [("profile", .str service), ("count", .int 1)])])])]

/-- `_parse_json`, where so many arrays and objects may be nested. -/
def parseJson (depth : Nat) (context out : Text) : AkashProg Dict :=
  match Json.loads depth out with
  | .ok (.obj data) => .ret data
  | .ok value => .raise (.computeError (.unexpectedShape context value))
  | .error .recursionError => .raise (.raised .recursionError)
  | .error _ => .raise (.computeError (.notJson context out))

/-- `int(x)` of a float. -/
def intOfFloat (x : Float) : Except PyExc Int :=
  if x.isNaN then .error .valueError
  else if x.isFinite then
    let (numerator, denominator) := floatScaled x 0
    let magnitude : Int := (numerator / denominator : Nat)
    .ok (if floatNegative x then -magnitude else magnitude)
  else .error .overflowError

/-- `_as_int`.  The text of a value that is neither a number nor a string is
no integer. -/
def asInt : Json → Except PyExc Int
  | .int value => .ok value
  | .bool value => .ok value.toInt
  | .float value => intOfFloat value
  | .str value =>
      match parseInt (strip isSpace value) with
      | .ok number => .ok number
      | .error _ => .ok 0
  | _ => .ok 0

/-- `_require_tx_ok`. -/
def requireTxOk (parsed : Dict) (context : Text) : AkashProg Unit := do
  let code ← lift (asInt ((parsed.find "code").getD (.int 0)))
  if code ≠ 0 then
    .raise (.computeError (.failedOnChain context code
      ((parsed.find "raw_log").getD (.str []))))
  else .ret ()

/-- The items of `x or []`. -/
def itemsOrNone (value : Json) : Except PyExc (List Json) :=
  if value.truthy then value.iterate else .ok []

/-- The dicts among the items of `x or []` for a field of each dict. -/
def flattenField (key : Text) (values : List Json) :
    Except PyExc (List Json) := do
  let found ← (values.filterMap Json.asDict).mapM fun fields =>
    itemsOrNone (fields.get key)
  return found.flatten

/-- `_iter_attributes`. -/
def iterAttributes (data : Dict) : Except PyExc (List Dict) := do
  let logged ← flattenField "events" (← itemsOrNone (data.get "logs"))
  let groups := logged ++ (← itemsOrNone (data.get "events"))
  return (← flattenField "attributes" groups).filterMap Json.asDict

section

variable (isPrintable : CodePoint → Bool)

/-- `_extract_dseq`. -/
def extractDseq (data : Dict) : Except PyExc (Option Text) := do
  match data.get "dseq" with
  | .str dseq => return some dseq
  | .int dseq => return some (← intRepr dseq)
  | .bool dseq => return some (if dseq then "True" else "False")
  | _ =>
      let attributes ← iterAttributes data
      match attributes.find? fun attr =>
          (attr.get "key").isStr "dseq" && (attr.get "value").truthy with
      | some attr => return some (← (attr.get "value").toStr isPrintable)
      | none => return none

/-- `entry.get("bid", entry)`, if the entry and it are dicts. -/
def bidOf (entry : Json) : Option Dict :=
  entry.asDict.bind fun fields => ((fields.find "bid").getD entry).asDict

/-- `(bid.get(key) or {}).get(inner)`. -/
def innerField (bid : Dict) (key inner : Text) : Except PyExc Json :=
  let value := bid.get key
  if value.truthy then
    match value.asDict with
    | some fields => .ok (fields.get inner)
    | none => .error .attributeError
  else .ok .null

/-- The price of a bid, infinite if it is missing or no number. -/
def bidPrice (raw : Json) : Except PyExc Float :=
  match raw with
  | .null => .ok floatInfinity
  | raw =>
      match raw.toFloat with
      | .ok price => .ok price
      | .error error =>
          if error = .typeError ∨ error.isValueError then .ok floatInfinity
          else .error error

/-- One turn of the loop. -/
def considerBid (best : Option (Float × Text)) (entry : Json) :
    Except PyExc (Option (Float × Text)) :=
  match bidOf entry with
  | none => .ok best
  | some bid => do
      let provider ← innerField bid "bid_id" "provider"
      let priceRaw ← innerField bid "price" "amount"
      if !provider.truthy then return best
      let price ← bidPrice priceRaw
      if best.all fun (bestPrice, _) => price < bestPrice then
        return some (price, ← provider.toStr isPrintable)
      else return best

def pickCheapestBid (data : Dict) : Except PyExc (Option Text) := do
  match data.get "bids" with
  | .arr bids =>
      return (← bids.foldlM (considerBid isPrintable) none).map (·.2)
  | _ => return none

end

structure AkashProvider where
  wallet : Text
  owner : Text
  cli : Text := "provider-services"
  gseq : Int := 1
  oseq : Int := 1
  chain : List Text := []

namespace AkashProvider

variable (self : AkashProvider)

/-- The words of a command. -/
def txArgs : List Text := "-o" :: "json" :: "-y" :: self.chain

def queryArgs : List Text := "-o" :: "json" :: self.chain

def leaseIdArgs (dseq providerAddr : Text) : List Text :=
  ["--owner", self.owner, "--dseq", dseq, "--gseq", intText self.gseq,
    "--oseq", intText self.oseq, "--provider", providerAddr]

def createArgv (sdlPath : Text) : List Text :=
  self.cli :: "tx" :: "deployment" :: "create" :: sdlPath :: "--from" ::
    self.wallet :: self.txArgs

def bidsArgv (dseq : Text) : List Text :=
  self.cli :: "query" :: "market" :: "bid" :: "list" :: "--owner" ::
    self.owner :: "--dseq" :: dseq :: self.queryArgs

def leaseArgv (dseq providerAddr : Text) : List Text :=
  self.cli :: "tx" :: "market" :: "lease" :: "create" ::
    (self.leaseIdArgs dseq providerAddr ++
      text "--from" :: self.wallet :: self.txArgs)

def manifestArgv (sdlPath dseq providerAddr : Text) : List Text :=
  self.cli :: "send-manifest" :: sdlPath :: "--dseq" :: dseq :: "--provider" ::
    providerAddr :: "--from" :: self.wallet :: self.chain

def closeArgv (owner dseq : Text) : List Text :=
  self.cli :: "tx" :: "deployment" :: "close" :: "--owner" :: owner ::
    "--dseq" :: dseq :: "--from" :: self.wallet :: self.txArgs

variable (isPrintable : CodePoint → Bool) (depth : Nat)

/-- The commands of `deploy`: the `dseq` and the provider. -/
def deployCommands (sdl : Dict) (sdlPath : Text) : AkashProg (Text × Text) := do
  safeDump sdlPath sdl
  let created ← parseJson depth "deployment create"
    (← run (self.createArgv sdlPath))
  requireTxOk created "deployment create"
  match ← lift (extractDseq isPrintable created) with
  | none => .raise (.computeError (.noDseq created))
  | some dseq =>
      let bids ← parseJson depth "bid list" (← run (self.bidsArgv dseq))
      match ← lift (pickCheapestBid isPrintable bids) with
      | none => .raise (.computeError (.noBids dseq))
      | some providerAddr =>
          let lease ← parseJson depth "lease create"
            (← run (self.leaseArgv dseq providerAddr))
          requireTxOk lease "lease create"
          let _ ← run (self.manifestArgv sdlPath dseq providerAddr)
          return (dseq, providerAddr)

def deploy (spec : InferenceSpec) : AkashProg Deployment := do
  let sdlPath ← mkstemp
  let (dseq, providerAddr) ← tryFinally
    (self.deployCommands isPrintable depth (buildSdl spec) sdlPath)
    (unlink sdlPath)
  return {
    provider := "akash"
    id := dseq
    model := spec.model
    status := .deploying
    pricingUnit := some spec.pricingUnit
    inputPer1m := some spec.inputPer1m
    outputPer1m := some spec.outputPer1m
    raw := [("owner", .str self.owner), ("dseq", .str dseq),
      ("provider", .str providerAddr), ("gseq", .int self.gseq),
      ("oseq", .int self.oseq)] }

/-- `_lease_coordinates`. -/
def leaseCoordinates (deployment : Deployment) :
    AkashProg (Text × Text × Text) := do
  let owner := deployment.raw.get "owner"
  let dseq := deployment.raw.get "dseq"
  let providerAddr := deployment.raw.get "provider"
  if owner.truthy && dseq.truthy && providerAddr.truthy then
    return (← lift (owner.toStr isPrintable), ← lift (dseq.toStr isPrintable),
      ← lift (providerAddr.toStr isPrintable))
  else .raise (.computeError (.missingCoordinates deployment.id))

/-- A command that fails is a `ComputeError`, unless it raises something
else. -/
def closeHandler (dseq : Text) : AkashExc → AkashProg Text
  | .command .subprocessError => .raise (.computeError (.closeFailed dseq))
  | .command .osError => .raise (.computeError (.closeFailed dseq))
  | error => .raise error

def teardown (deployment : Deployment) : AkashProg Unit := do
  let (owner, dseq, _) ← leaseCoordinates isPrintable deployment
  let _ ← (run (self.closeArgv owner dseq)).tryCatch (closeHandler dseq)
  return ()

/-- A deployment and its end. -/
def lifecycle (spec : InferenceSpec) : AkashProg Unit := do
  let deployment ← self.deploy isPrintable depth spec
  self.teardown isPrintable deployment

end AkashProvider

end SovereignInference.SipProviderAkash
