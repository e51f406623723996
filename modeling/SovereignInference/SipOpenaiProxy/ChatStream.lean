import SovereignInference.SipOpenaiProxy.ChatEndpoint

/-!
# Streamed completions

A stream has a line of JSON for each chunk.  A client joins the content of the
chunks and gets the whole content, whatever is in it.
-/

namespace SovereignInference.SipOpenaiProxy

open Python Effects SipProtocol SipPolicy SipRouter
open Python.Http (Unbroken isLineBreak splitLines_lines)

theorem encodeUtf8_append {s t : Text} {first second : Bytes}
    (isFirst : encodeUtf8 s = .ok first)
    (isSecond : encodeUtf8 t = .ok second) :
    encodeUtf8 (s ++ t) = .ok (first ++ second) := by
  induction s generalizing first with
  | nil =>
      cases isFirst
      exact isSecond
  | cons c s induction =>
      obtain ⟨head, tail, isHead, isTail, rfl⟩ := encodeUtf8_cons.mp isFirst
      rw [List.cons_append, List.append_assoc]
      exact encodeUtf8_cons.mpr ⟨head, _, isHead, induction isTail, rfl⟩

theorem unbroken_printed {line : Text} (printed : ∀ c ∈ line, Json.Printed c) :
    Unbroken line := by
  intro c member
  obtain ⟨low, high⟩ := printed c member
  simp only [isLineBreak, List.contains_eq_mem, List.mem_cons,
    List.not_mem_nil, or_false, decide_eq_false_iff_not]
  omega

def doneLine : Text := "data: [DONE]"

/-- The line of a chunk, and the empty line after it. -/
def chunkLines (written : Text) : List Text := [text "data: " ++ written, []]

/-- The text of some lines. -/
def linesText (lines : List Text) : Text :=
  lines.flatMap fun line => line ++ [0x0A]

variable {stamp : Stamp} {model content : Text} {delta : Dict} {finish : Json}

theorem chunk_eq_ok {bytes : Bytes}
    (made : chunk stamp model delta finish = .ok bytes) :
    ∃ written, Json.dumps (chunkJson stamp model delta finish) = .ok written ∧
      encodeUtf8 (linesText (chunkLines written)) = .ok bytes := by
  obtain ⟨written, dumped, encoded⟩ := bind_eq_ok.mp made
  refine ⟨written, dumped, ?_⟩
  simpa [linesText, chunkLines] using encoded

/-- The chunks of a stream: the role, the content and the end. -/
def chunksJson (stamp : Stamp) (model content : Text) : List Json :=
  [chunkJson stamp model [("role", .str "assistant")] .null,
    chunkJson stamp model [("content", .str content)] .null,
    chunkJson stamp model [] (.str "stop")]

theorem sse_eq_ok {bytes : Bytes}
    (made : sse stamp model content = .ok bytes) :
    ∃ written, (chunksJson stamp model content).mapM Json.dumps =
        .ok written ∧
      encodeUtf8 (linesText (written.flatMap chunkLines ++ [doneLine, []])) =
        .ok bytes := by
  obtain ⟨role, madeRole, made⟩ := bind_eq_ok.mp made
  obtain ⟨middle, madeMiddle, made⟩ := bind_eq_ok.mp made
  obtain ⟨stop, madeStop, made⟩ := bind_eq_ok.mp made
  cases made
  obtain ⟨first, dumpedFirst, encodedFirst⟩ := chunk_eq_ok madeRole
  obtain ⟨second, dumpedSecond, encodedSecond⟩ := chunk_eq_ok madeMiddle
  obtain ⟨third, dumpedThird, encodedThird⟩ := chunk_eq_ok madeStop
  have done : encodeUtf8 (linesText [doneLine, []]) =
      .ok (ascii "data: [DONE]\n\n") := by decide
  refine ⟨[first, second, third], ?_, ?_⟩
  · simp [chunksJson, dumpedFirst, dumpedSecond, dumpedThird]
  · have whole := encodeUtf8_append (encodeUtf8_append
      (encodeUtf8_append encodedFirst encodedSecond) encodedThird) done
    simpa [linesText] using whole

/-- An object that is read as it is written. -/
structure Written (depth : Nat) (object : Json) : Prop where
  isObject : ∃ fields, object = .obj fields
  distinct : object.DistinctKeys
  clean : object.Clean
  shallow : Json.nesting object ≤ depth

theorem dumps_obj_head {fields : Dict} {written : Text}
    (dumped : Json.dumps (.obj fields) = .ok written) :
    written.head? = some 0x7B := by
  obtain ⟨members, _, dumped⟩ := bind_eq_ok.mp dumped
  cases dumped
  have opens := Json.spaced.head_bracketed 0x7B 0x7D 0
    (members.map Json.spaced.member) []
  rwa [List.append_nil] at opens

/-- What starts with a brace is not the end of the stream. -/
theorem strip_ne_done {written : Text} (opens : written.head? = some 0x7B) :
    strip isSpace written ≠ text "[DONE]" := by
  intro same
  obtain ⟨rest, rfl⟩ := List.head?_eq_some_iff.mp opens
  have kept : (0x7B :: rest : Text).dropWhile isSpace = 0x7B :: rest :=
    List.dropWhile_cons_of_neg (by decide)
  have isPrefix : strip isSpace (0x7B :: rest) <+: 0x7B :: rest := by
    unfold strip
    rw [kept]
    exact List.rdropWhile_prefix _ _
  rw [same] at isPrefix
  obtain ⟨later, split⟩ := isPrefix
  have first : some (0x5B : CodePoint) = some 0x7B := congrArg List.head? split
  exact absurd first (by decide)

variable {depth : Nat}

private theorem read_chunk {object : Json} {written : Text}
    (isWritten : Written depth object)
    (dumped : Json.dumps object = .ok written) (stream : SinNode.Stream) :
    stream.read depth (text "data: " ++ written) = stream.add object := by
  obtain ⟨fields, rfl⟩ := isWritten.isObject
  obtain ⟨s, dumped', loaded⟩ := Json.loads_dumps isWritten.distinct
    isWritten.clean depth
  rw [dumped] at dumped'
  cases dumped'
  have line : SinNode.lineText (text "data: " ++ written) = written := rfl
  unfold SinNode.Stream.read
  rw [line, if_neg, loaded, Json.readWhole, if_pos isWritten.shallow]
  rintro (isEmpty | isDone)
  · cases isEmpty
  · exact strip_ne_done (dumps_obj_head dumped) isDone

theorem read_chunks {objects : List Json} {written : List Text}
    (each : ∀ object ∈ objects, Written depth object)
    (dumped : objects.mapM Json.dumps = .ok written)
    (stream : SinNode.Stream) :
    (written.flatMap chunkLines).foldlM (SinNode.Stream.read depth) stream =
      objects.foldlM SinNode.Stream.add stream := by
  induction objects generalizing written stream with
  | nil =>
      cases dumped
      rfl
  | cons object objects induction =>
      obtain ⟨first, others⟩ := List.forall_mem_cons.mp each
      rw [List.mapM_cons] at dumped
      obtain ⟨line, dumpedFirst, dumped⟩ := bind_eq_ok.mp dumped
      obtain ⟨lines, dumpedOthers, dumped⟩ := bind_eq_ok.mp dumped
      cases dumped
      rw [List.flatMap_cons, List.foldlM_append, List.foldlM_cons]
      change (do
        let later ← ([text "data: " ++ line, []] : List Text).foldlM
          (SinNode.Stream.read depth) stream
        _) = _
      rw [List.foldlM_cons, read_chunk first dumpedFirst]
      cases stream.add object with
      | error error => rfl
      | ok later => exact induction others dumpedOthers later

theorem unbroken_chunks {objects : List Json} {written : List Text}
    (each : ∀ object ∈ objects, Written depth object)
    (dumped : objects.mapM Json.dumps = .ok written) :
    ∀ line ∈ written.flatMap chunkLines, Unbroken line := by
  intro line member
  obtain ⟨s, isWritten, inLines⟩ := List.mem_flatMap.mp member
  obtain ⟨object, isObject, dumpedObject⟩ :=
    forall₂_source (mapM_forall₂ dumped) isWritten
  have readable := each object isObject
  have printed := Json.dumps_printed readable.distinct
    (Json.Clean.shortIntegers object readable.clean) dumpedObject
  rcases List.mem_cons.mp inLines with rfl | isEmpty
  · refine unbroken_printed (List.forall_mem_append.mpr ⟨?_, printed⟩)
    exact Json.printed_of_isPrinted (by decide)
  · obtain rfl := List.mem_singleton.mp isEmpty
    exact List.forall_mem_nil _

private theorem chunkJson_written
    (deltaDistinct : (Json.obj delta).DistinctKeys)
    (finishDistinct : finish.DistinctKeys)
    (deltaClean : (Json.obj delta).Clean) (finishClean : finish.Clean)
    (flatDelta : Json.nesting (.obj delta) ≤ 1) (flat : Json.nesting finish = 0)
    (isModel : Encodable model)
    (dated : stamp.created.natAbs < 10 ^ maxStrDigits) (deep : 4 ≤ depth) :
    Written depth (chunkJson stamp model delta finish) := by
  have identified : Encodable (completionId stamp) :=
    encodable_append.mpr ⟨encodable_text _, Json.encodable_hexDigits _ _⟩
  have choice : (Json.obj [("index", .int 0), ("delta", .obj delta),
      ("finish_reason", finish)]).DistinctKeys :=
    Json.distinct_obj ["index", "delta", "finish_reason"] rfl (by decide)
      (by simp [Json.DistinctKeys.int, deltaDistinct, finishDistinct])
  refine ⟨⟨_, rfl⟩, ?_, ?_, ?_⟩
  · exact Json.distinct_obj ["id", "object", "created", "model", "choices"] rfl
      (by decide) (by
        simp [Json.DistinctKeys.str, Json.DistinctKeys.int,
          Json.DistinctKeys.arr _ (List.forall_mem_singleton.mpr choice)])
  · rw [Json.clean_obj] at deltaClean
    simpa [chunkJson, identified, dated, isModel, finishClean,
      Json.clean_int] using deltaClean
  · simp only [chunkJson, Json.nesting, Json.nestingFields,
      Json.nestingField, Json.nestingItems] at flatDelta ⊢
    omega

private theorem chunks_written (isContent : Encodable content)
    (isModel : Encodable model)
    (dated : stamp.created.natAbs < 10 ^ maxStrDigits) (deep : 4 ≤ depth) :
    ∀ object ∈ chunksJson stamp model content, Written depth object := by
  have single : ∀ (key : String) (value : Text), Encodable value →
      (Json.obj [(text key, .str value)]).DistinctKeys ∧
        (Json.obj [(text key, .str value)]).Clean ∧
          Json.nesting (.obj [(text key, .str value)]) ≤ 1 := by
    intro key value encodable
    exact ⟨.obj _ (List.nodup_singleton _)
      (by simp [Json.DistinctKeys.str]), by simp [encodable], le_rfl⟩
  have role := single "role" "assistant" (encodable_text _)
  have whole := single "content" content isContent
  simp only [chunksJson, List.forall_mem_cons, List.not_mem_nil,
    false_implies, implies_true, and_true]
  refine ⟨?_, ?_, ?_⟩
  · exact chunkJson_written role.1 .null role.2.1 trivial role.2.2 rfl isModel
      dated deep
  · exact chunkJson_written whole.1 .null whole.2.1 trivial whole.2.2 rfl
      isModel dated deep
  · exact chunkJson_written (.obj [] List.nodup_nil (List.forall_mem_nil _))
      (.str _) (by simp) (encodable_text _) le_rfl rfl isModel dated deep

/-- **A stream says its content**, whatever characters are in it. -/
theorem readStream_sse {decoder : Http.TextDecoder} {body : Bytes}
    (made : sse stamp model content = .ok body)
    (isContent : Encodable content) (isModel : Encodable model)
    (dated : stamp.created.natAbs < 10 ^ maxStrDigits) (deep : 4 ≤ depth) :
    SinNode.readStream depth (Http.iterLines decoder body) =
      .ok ⟨content, if content = [] then 0 else 1⟩ := by
  obtain ⟨written, dumped, encoded⟩ := sse_eq_ok made
  have each := @chunks_written stamp model content depth isContent isModel
    dated deep
  have lines : Http.iterLines decoder body =
      written.flatMap chunkLines ++ [doneLine, []] := by
    unfold Http.iterLines
    rw [decoder.utf8 body _ (decodeUtf8_eq_some.mpr encoded)]
    apply splitLines_lines
    refine List.forall_mem_append.mpr ⟨unbroken_chunks each dumped, ?_⟩
    have done : Unbroken doneLine :=
      unbroken_printed (Json.printed_of_isPrinted (by decide))
    exact List.forall_mem_cons.mpr ⟨done,
      List.forall_mem_singleton.mpr (List.forall_mem_nil _)⟩
  unfold SinNode.readStream
  rw [lines, List.foldlM_append, read_chunks each dumped]
  cases content with
  | nil => rfl
  | cons c rest =>
      have added : (chunksJson stamp model (c :: rest)).foldlM
          SinNode.Stream.add ⟨[], none⟩ =
            .ok (⟨[.str (c :: rest)], none⟩ : SinNode.Stream) := rfl
      have ends : ∀ stream, [doneLine, []].foldlM
          (SinNode.Stream.read depth) stream = .ok stream := fun _ => rfl
      have joined : SinNode.joinPieces [.str (c :: rest)] =
          .ok (c :: rest) := by
        simp [SinNode.joinPieces]
      rw [added, ok_bind, ends, ok_bind, joined]
      rfl

/-- **A stream is what a permitted provider signed.**  A client of the stream
joins exactly the content of the receipt. -/
theorem stream_vouched {P : Platform} {policy : Option Policy}
    {getScore : Option (Text → Option Float)}
    {registry providers : List ProviderEntry} {proxy : Proxy}
    {authorization : Option Bytes} {request : ChatRequest}
    {start final : NetworkState} {response : Http.Response}
    {decoder : Http.TextDecoder} {clientDepth : Nat}
    (permitted : permittedEntries P policy getScore registry = .ok providers)
    (streams : request.stream = true) (isModel : Encodable request.model)
    (dated : stamp.created.natAbs < 10 ^ maxStrDigits)
    (deep : 4 ≤ clientDepth)
    (run : Exec (receivedNetwork depth) start
      (chatCompletions P proxy providers stamp authorization request) final
      (.ok response)) :
    (Refused providers proxy authorization request start final
        response.status ∧
      SinNode.streamChat decoder clientDepth response =
        .error (.status response.status)) ∨
    ∃ candidate key receipt content,
      Vouched P policy getScore registry candidate key receipt content ∧
      SinNode.streamChat decoder clientDepth response =
        .ok ⟨content, if content = [] then 0 else 1⟩ := by
  rcases answered_cases permitted run with refused |
    ⟨candidate, key, receipt, result, vouched, answered⟩
  · refine .inl ⟨refused, ?_⟩
    unfold SinNode.streamChat
    rw [refused.noCompletion]
    rfl
  · unfold completion at answered
    rw [streams, if_pos rfl] at answered
    obtain ⟨body, made, answered⟩ := bind_eq_ok.mp answered
    cases answered
    obtain ⟨hash, hashed, _⟩ := vouched.vouched.guaranteed.bound
    have isContent := (hashResponseBody_isOk result.content).mp ⟨hash, hashed⟩
    refine .inr ⟨candidate, key, receipt, result.content, vouched.vouched, ?_⟩
    unfold SinNode.streamChat SinNode.raiseForStatus
    rw [if_pos (⟨le_rfl, by decide⟩ : (200 : Int) ≤ 200 ∧ (200 : Int) < 300),
      ok_bind, readStream_sse made isContent isModel dated deep]
    rfl

/-- The decoder that gives up where bytes are no UTF-8. -/
def plainDecoder : Http.TextDecoder where
  decode := fun bytes => (decodeUtf8 bytes).getD []
  utf8 := by
    intro bytes s decoded
    rw [decoded, Option.getD_some]

theorem stream_vouched_one : ∃ final response content tokens receipt,
    Exec (receivedNetwork 4) ⟨[], []⟩ (chatCompletions routeTable.platform
        openProxy oneEntry sampleStamp (some bearerKey) (hiRequest true))
        final (.ok response) ∧
      SinNode.streamChat plainDecoder 4 response = .ok ⟨content, tokens⟩ ∧
      ReceiptGuarantee routeTable.platform content providerKey receipt := by
  obtain ⟨response, ran, served, run⟩ := proxyRun_served true
  have isModel : Encodable (hiRequest true).model := encodable_text "m"
  have dated : sampleStamp.created.natAbs < 10 ^ maxStrDigits :=
    (by decide : 1767225600 < 10 ^ 10).trans_le
      (Nat.pow_le_pow_right (by decide) (by decide))
  rcases @stream_vouched _ 4 _ _ _ _ _ _ _ _ _ _ _ plainDecoder 4
      oneEntry_permitted rfl isModel dated (by decide) run with ⟨refused, _⟩ |
    ⟨candidate, key, receipt, content, vouched, reads⟩
  · have noCompletion := refused.noCompletion
    unfold SinNode.raiseForStatus at noCompletion
    rw [served] at noCompletion
    cases noCompletion
  · obtain rfl := List.mem_singleton.mp vouched.listed
    cases vouched.named
    exact ⟨_, response, content, _, receipt, run, reads, vouched.guaranteed⟩

end SovereignInference.SipOpenaiProxy
