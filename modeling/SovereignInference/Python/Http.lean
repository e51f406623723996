import SovereignInference.Effects.Outcome
import SovereignInference.Python.JsonInOrder
import SovereignInference.Python.SameMembers

/-!
# JSON over HTTP

Bodies are compact JSON, and what is sent is what is received.  A server
answers an exception that no handler catches with status 500.
-/

namespace Python.Http

open Json Effects

/-- The parts of a response that are read. -/
structure Response where
  status : Int
  contentType : Text
  body : Bytes
  deriving DecidableEq

section

variable (codecs : Codecs) (depth : Nat)

/-- `request.json()` and `response.json()` -/
def bodyJson (body : Bytes) : Except PyExc Json :=
  match loadsBytes codecs depth body with
  | some (.ok value) => .ok value
  | some (.error .recursionError) => .error .recursionError
  | _ => .error .valueError

end

/-- `JSONResponse(content, status_code=status)` -/
def jsonResponse (status : Int) (content : Json) : Except PyExc Response := do
  return ⟨status, "application/json", ← dumpBytes false content⟩

def internalError : Response where
  status := 500
  contentType := "text/plain; charset=utf-8"
  body := (text "Internal Server Error").map fun c => UInt8.ofNat c.val

/-- What a server makes of the outcome of an endpoint. -/
def served : Except PyExc Response → Response
  | .ok response => response
  | .error _ => internalError

variable {codecs : Codecs} {depth : Nat} {status : Int} {content : Json}
  {body : Bytes} {response : Response}

theorem jsonResponse_isOk (status : Int) (content : Json) :
    (∃ response, jsonResponse status content = .ok response) ↔
      content.Clean := by
  rw [← dumpBytes_isOk false content]
  unfold jsonResponse
  cases dumpBytes false content <;> simp

theorem jsonResponse_eq_ok :
    jsonResponse status content = .ok response ↔
      response.status = status ∧ response.contentType = "application/json" ∧
        dumpBytes false content = .ok response.body := by
  unfold jsonResponse
  obtain ⟨status', contentType, body⟩ := response
  cases dumpBytes false content with
  | error error => simp
  | ok bytes =>
      simp only [ok_bind, pure_eq_ok, Except.ok.injEq, Response.mk.injEq]
      tauto

theorem bodyJson_eq_ok :
    bodyJson codecs depth body = .ok content ↔
      loadsBytes codecs depth body = some (.ok content) := by
  unfold bodyJson
  split <;> simp_all

/-- **What is sent as JSON is received**, unless it is nested too deeply. -/
theorem bodyJson_dumpBytes (distinct : content.DistinctKeys)
    (shallow : nesting content ≤ depth)
    (sent : dumpBytes false content = .ok body) :
    bodyJson codecs depth body = .ok content := by
  rw [bodyJson_eq_ok, loadsBytes_dumpBytes codecs depth distinct sent]
  exact congrArg some (if_pos shallow)

/-- What was received can be received again. -/
theorem bodyJson_readable
    (received : bodyJson codecs depth body = .ok content) :
    content.DistinctKeys ∧ nesting content ≤ depth :=
  loadsBytes_readable (bodyJson_eq_ok.mp received)

/-- So can every dict that is a member of it. -/
theorem bodyJson_member {fields member : Dict} {key : Text}
    (received : bodyJson codecs depth body = .ok (.obj fields))
    (isMember : fields.get key = .obj member) :
    (Json.obj member).DistinctKeys ∧ nesting (.obj member) ≤ depth := by
  obtain ⟨distinct, shallow⟩ := bodyJson_readable received
  have found : fields.find key = some (.obj member) := by
    unfold Dict.get at isMember
    cases found : fields.find key with
    | none =>
        rw [found] at isMember
        cases isMember
    | some value => exact congrArg some (by rwa [found] at isMember)
  have inside := nestingFields_le.mp (Nat.le_of_succ_le shallow) _
    (Dict.find_mem found)
  exact ⟨distinct.of_find found, inside⟩

/-- Where every body is UTF-8. -/
def utf8Codecs : Codecs := ⟨fun _ => decodeUtf8, fun _ _ => id⟩

/-- The UTF-8 decoder of a client, which replaces what is no UTF-8. -/
structure TextDecoder where
  decode : Bytes → Text
  utf8 : ∀ bytes s, decodeUtf8 bytes = some s → decode bytes = s

/-- A boundary of `str.splitlines`. -/
def isLineBreak (c : CodePoint) : Bool :=
  [0x0A, 0x0B, 0x0C, 0x0D, 0x1C, 0x1D, 0x1E, 0x85, 0x2028, 0x2029].contains
    c.val

/-- The lines from the start of one on. -/
def splitLinesFrom (start : Text) : Text → List Text
  | [] => if start = [] then [] else [start]
  | c :: rest =>
      -- A return before a newline ends the line together with it.
      if c.val = 0x0D ∧ rest.head? = some 0x0A then splitLinesFrom start rest
      else if isLineBreak c then start :: splitLinesFrom [] rest
      else splitLinesFrom (start ++ [c]) rest

/-- `str.splitlines` -/
def splitLines (s : Text) : List Text := splitLinesFrom [] s

/-- `response.iter_lines()` -/
def iterLines (decoder : TextDecoder) (body : Bytes) : List Text :=
  splitLines (decoder.decode body)

def Unbroken (line : Text) : Prop := ∀ c ∈ line, isLineBreak c = false

private theorem splitLinesFrom_line {line : Text} (unbroken : Unbroken line)
    (start rest : Text) :
    splitLinesFrom start (line ++ 0x0A :: rest) =
      (start ++ line) :: splitLines rest := by
  induction line generalizing start with
  | nil =>
      rw [List.nil_append, List.append_nil, splitLinesFrom,
        if_neg fun both => absurd both.1 (by decide),
        if_pos (by decide : isLineBreak 0x0A = true), splitLines]
  | cons c line induction =>
      obtain ⟨notBreak, others⟩ := List.forall_mem_cons.mp unbroken
      have notReturn : c.val ≠ 0x0D := by
        intro isReturn
        simp [isLineBreak, isReturn] at notBreak
      rw [List.cons_append, splitLinesFrom,
        if_neg fun both => notReturn both.1, notBreak,
        if_neg Bool.false_ne_true, induction others, List.append_assoc,
        List.singleton_append]

/-- **Lines that end in newlines are split** again. -/
theorem splitLines_lines {lines : List Text}
    (unbroken : ∀ line ∈ lines, Unbroken line) :
    splitLines (lines.flatMap fun line => line ++ [0x0A]) = lines := by
  induction lines with
  | nil => rfl
  | cons line lines induction =>
      obtain ⟨first, others⟩ := List.forall_mem_cons.mp unbroken
      rw [List.flatMap_cons, List.append_assoc, List.singleton_append,
        splitLines, splitLinesFrom_line first, List.nil_append,
        induction others]

end Python.Http
