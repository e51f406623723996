import SovereignInference.Python.Http
import SovereignInference.SipProviderAkash.Provider
import SovereignInference.SipRouter.Resolver

/-!
# An OpenAI-compatible client

A completion is read from a JSON body at once, or from the lines of a stream
in pieces.  Lines of a stream that are no JSON are passed over.
-/

namespace SovereignInference.SinNode

open Python Effects
open SipProviderAkash (intOfFloat)
open SipRouter (orElse)

/-- `value[key]`. -/
def getItem (value : Json) (key : Text) : Except PyExc Json :=
  match value with
  | .obj fields =>
      match Dict.find fields key with
      | some value => .ok value
      | none => .error .keyError
  | _ => .error .typeError

/-- `value[0]`. -/
def getFirst : Json → Except PyExc Json
  | .arr (first :: _) => .ok first
  | .arr [] => .error .indexError
  | .str (first :: _) => .ok (.str [first])
  | .str [] => .error .indexError
  | .obj _ => .error .keyError
  | _ => .error .typeError

/-- `value.get`, which only dicts have. -/
def fieldsOf (value : Json) : Except PyExc Dict :=
  match value.asDict with
  | some fields => .ok fields
  | none => .error .attributeError

/-- `int(value)`. -/
def toInt : Json → Except PyExc Int
  | .int value => .ok value
  | .bool value => .ok value.toInt
  | .float value => intOfFloat value
  | .str value => parseInt (strip isSpace value)
  | _ => .error .typeError

/-- A response with an error status, or another exception. -/
inductive HttpExc where
  | status (code : Int)
  | raised (error : PyExc)
  deriving DecidableEq

/-- `response.raise_for_status()` -/
def raiseForStatus (response : Http.Response) : Except HttpExc Unit :=
  if 200 ≤ response.status ∧ response.status < 300 then .ok ()
  else .error (.status response.status)

structure ChatResult where
  content : Text
  inputTokens : Int
  outputTokens : Int
  deriving DecidableEq

/-- `int(usage.get(key, 0))`. -/
def tokensAt (usage : Json) (key : Text) : Except PyExc Int := do
  toInt (((← fieldsOf usage).find key).getD (.int 0))

/-- What `chat` reads of the JSON of a response. -/
def readChat (data : Json) : Except PyExc ChatResult := do
  let choices ← getItem data "choices"
  let message ← getItem (← getFirst choices) "message"
  let content ← getItem message "content"
  let usage := orElse ((← fieldsOf data).get "usage") (.obj [])
  let inputTokens ← tokensAt usage "prompt_tokens"
  let outputTokens ← tokensAt usage "completion_tokens"
  match content with
  | .str content => return ⟨content, inputTokens, outputTokens⟩
  | _ => .error .valueError

/-- `chat` from the response on. -/
def chat (codecs : Codecs) (depth : Nat) (response : Http.Response) :
    Except HttpExc ChatResult := do
  raiseForStatus response
  ((do readChat (← Http.bodyJson codecs depth response.body)) :
    Except PyExc ChatResult).mapError .raised

/-- The pieces of content so far, and the tokens that were counted. -/
structure Stream where
  pieces : List Json
  tokens : Option Int

/-- The text of a line without `data: `. -/
def lineText (raw : Text) : Text :=
  if startsWith raw "data: " then raw.drop 6 else raw

/-- The `delta` of the first choice, or nothing. -/
def deltaOf (object : Dict) : Except PyExc Dict := do
  let choices := orElse (object.get "choices") (.arr [])
  if choices.truthy then
    let first ← fieldsOf (← getFirst choices)
    fieldsOf ((first.find "delta").getD (.obj []))
  else return []

/-- `int(usage["completion_tokens"])`, if it is stated. -/
def countedTokens (object : Dict) : Except PyExc (Option Int) := do
  let usage := object.get "usage"
  if usage.truthy then
    match (← fieldsOf usage).get "completion_tokens" with
    | .null => return none
    | tokens => return some (← toInt tokens)
  else return none

/-- What the JSON of a line adds to a stream. -/
def Stream.add (stream : Stream) (object : Json) : Except PyExc Stream := do
  let object ← fieldsOf object
  let piece := (← deltaOf object).get "content"
  let tokens ← countedTokens object
  return ⟨if piece.truthy then stream.pieces ++ [piece] else stream.pieces,
    tokens.or stream.tokens⟩

/-- The body of the loop over lines. -/
def Stream.read (depth : Nat) (stream : Stream) (raw : Text) :
    Except PyExc Stream :=
  let line := lineText raw
  if raw = [] ∨ strip isSpace line = "[DONE]" then .ok stream
  else
    match Json.loads depth line with
    | .ok object => stream.add object
    | .error .decodeError => .ok stream
    | .error .valueError => .error .valueError
    | .error .recursionError => .error .recursionError

/-- `"".join(pieces)` -/
def joinPieces (pieces : List Json) : Except PyExc Text := do
  let texts ← pieces.mapM fun piece =>
    match piece with
    | .str piece => Except.ok piece
    | _ => .error .typeError
  return texts.flatten

/-- What `StreamStats` says besides times. -/
structure StreamStats where
  content : Text
  outputTokens : Int
  deriving DecidableEq

/-- `stream_chat` from the lines of the response on. -/
def readStream (depth : Nat) (lines : List Text) :
    Except PyExc StreamStats := do
  let stream ← lines.foldlM (Stream.read depth) ⟨[], none⟩
  return ⟨← joinPieces stream.pieces,
    stream.tokens.getD stream.pieces.length⟩

/-- `stream_chat` from the response on. -/
def streamChat (decoder : Http.TextDecoder) (depth : Nat)
    (response : Http.Response) : Except HttpExc StreamStats := do
  raiseForStatus response
  (readStream depth (Http.iterLines decoder response.body)).mapError .raised

end SovereignInference.SinNode
