import SovereignInference.Python.JsonChars
import SovereignInference.Python.JsonCompact
import SovereignInference.Python.Utf8

/-!
# JSON in bytes

`json.loads` of bytes tells the encoding from the first of them.  JSON that
starts with ASCII and has no control characters is taken for UTF-8.
-/

namespace Python

/-- The encodings that `json.loads` tells apart. -/
inductive Encoding where
  | utf8
  | utf8Sig
  | utf16
  | utf16Be
  | utf16Le
  | utf32
  | utf32Be
  | utf32Le

/-- `json.detect_encoding`. -/
def detectEncoding (b : Bytes) : Encoding :=
  if [0x00, 0x00, 0xFE, 0xFF].isPrefixOf b ∨
      [0xFF, 0xFE, 0x00, 0x00].isPrefixOf b then .utf32
  else if [0xFE, 0xFF].isPrefixOf b ∨ [0xFF, 0xFE].isPrefixOf b then .utf16
  else if [0xEF, 0xBB, 0xBF].isPrefixOf b then .utf8Sig
  else
    match b with
    | w :: x :: y :: z :: _ =>
        if w = 0 then if x = 0 then .utf32Be else .utf16Be
        else if x = 0 then
          if y = 0 ∧ z = 0 then .utf32Le else .utf16Le
        else .utf8
    | [w, x] => if w = 0 then .utf16Be else if x = 0 then .utf16Le else .utf8
    | _ => .utf8

/-- `bytes.decode(encoding, "surrogatepass")`, which reads UTF-8 as such. -/
structure Codecs where
  decode : Encoding → Bytes → Option Text
  utf8 : ∀ bytes s, decodeUtf8 bytes = some s → decode .utf8 bytes = some s

/-- `json.loads` of bytes, unless they cannot be decoded. -/
def loadsBytes (codecs : Codecs) (depth : Nat) (bytes : Bytes) :
    Option (Except Json.ScanError Json) :=
  (codecs.decode (detectEncoding bytes) bytes).map (Json.loads depth)

/-- No byte order mark, and no zero among the first two bytes. -/
theorem detectEncoding_utf8 {lead : UInt8} {rest : Bytes}
    (ascii : lead.toNat < 0x80) (notZero : lead ≠ 0)
    (notZero' : ∀ next ∈ rest.head?, next ≠ 0) :
    detectEncoding (lead :: rest) = .utf8 := by
  have noMark : ∀ mark : UInt8, 0x80 ≤ mark.toNat → (mark == lead) = false := by
    intro mark high
    rw [beq_eq_false_iff_ne]
    rintro rfl
    omega
  have zero : ((0 : UInt8) == lead) = false :=
    beq_eq_false_iff_ne.mpr notZero.symm
  unfold detectEncoding
  simp only [List.isPrefixOf, noMark 0xFF (by decide), noMark 0xFE (by decide),
    noMark 0xEF (by decide), zero, Bool.false_and, Bool.false_eq_true,
    or_self, if_false]
  split
  · rename_i same
    cases same
    rw [if_neg notZero, if_neg (notZero' _ rfl)]
  · rename_i same
    cases same
    rw [if_neg notZero, if_neg (notZero' _ rfl)]
  · rfl

private theorem encodeChar_lead {c : CodePoint} {bytes : Bytes}
    (encoded : encodeChar c = .ok bytes) (positive : 0 < c.val) :
    ∃ lead rest, bytes = lead :: rest ∧ lead ≠ 0 := by
  obtain ⟨decoded, lead, rest, rfl, width⟩ := encodeChar_decoded encoded
  refine ⟨lead, rest, rfl, ?_⟩
  rintro rfl
  obtain rfl : rest = [] := List.eq_nil_of_length_eq_zero (by
    rw [List.length_cons] at width
    exact Nat.succ_injective width)
  exact absurd decoded positive.ne

/-- Text without control characters that starts with ASCII. -/
theorem detectEncoding_text {c : CodePoint} {s : Text} {bytes : Bytes}
    (ascii : c.val < 0x80) (positive : ∀ d ∈ c :: s, 0 < d.val)
    (encoded : encodeUtf8 (c :: s) = .ok bytes) :
    detectEncoding bytes = .utf8 := by
  obtain ⟨first, others⟩ := List.forall_mem_cons.mp positive
  obtain ⟨head, tail, isHead, isTail, rfl⟩ := encodeUtf8_cons.mp encoded
  obtain ⟨decoded, lead, rest, rfl, width⟩ := encodeChar_decoded isHead
  obtain ⟨_, _, ⟨⟩, notZero⟩ := encodeChar_lead isHead first
  have single : rest = [] ∧ lead.toNat < 0x80 := by
    unfold encodeChar at isHead
    dsimp only at isHead
    split_ifs at isHead with surrogate
    cases isHead
    refine ⟨rfl, ?_⟩
    rw [UInt8.toNat_ofNat']
    omega
  obtain ⟨rfl, small⟩ := single
  apply detectEncoding_utf8 small notZero
  intro next isNext
  cases s with
  | nil =>
      cases isTail
      cases isNext
  | cons d s =>
      obtain ⟨head, tail', isHead', _, rfl⟩ := encodeUtf8_cons.mp isTail
      obtain ⟨lead', rest', rfl, notZero'⟩ :=
        encodeChar_lead isHead' (others d List.mem_cons_self)
      cases isNext
      exact notZero'

namespace Json

private theorem escapeJson_positive (c : CodePoint) :
    ∀ d ∈ escapeJson c, 0 < d.val := by
  by_cases escaped : c ∈ escapedChars
  · have all : (escapedChars.all fun c =>
        (escapeJson c).all fun d => decide (0 < d.val)) = true := by
      decide +kernel
    have positive := List.all_eq_true.mp (List.all_eq_true.mp all c escaped)
    exact fun d member => of_decide_eq_true (positive d member)
  · rw [escapeJson_plain escaped, List.forall_mem_singleton]
    rw [Nat.pos_iff_ne_zero]
    intro zero
    obtain rfl : c = 0 := Fin.ext zero
    exact escaped (by decide)

/-- In compact JSON no character is zero. -/
theorem compact_keeps : compact.Keeps fun c => 0 < c.val where
  printed := fun _ printed => Nat.lt_of_lt_of_le (by decide) printed.1
  quote := by
    intro s
    change ∀ c ∈ 0x22 :: (s.flatMap escapeJson ++ [0x22]), 0 < c.val
    simp only [List.forall_mem_cons, List.forall_mem_append,
      List.mem_flatMap]
    refine ⟨by decide, ?_, by decide, List.forall_mem_nil _⟩
    rintro c ⟨d, _, member⟩
    exact escapeJson_positive d c member
  line := fun _ => List.forall_mem_nil _
  gap := List.forall_mem_nil _

/-- Compact JSON that can be encoded is read from its bytes. -/
theorem loadsBytes_compact (codecs : Codecs) (depth : Nat) {value : Json}
    (short : ShortIntegers value) {bytes : Bytes}
    (encoded : encodeUtf8 (compact.render 0 value) = .ok bytes) :
    loadsBytes codecs depth bytes =
      some (loads depth (compact.render 0 value)) := by
  obtain ⟨c, s, split, _, _, small⟩ :=
    (@scansTo_render compact depth 0 value short).1
  have positive := @Layout.Keeps.render _ _ compact_keeps 0 value
  have decoded := decodeUtf8_eq_some.mpr encoded
  rw [split] at encoded positive
  have ascii : c.val < 0x80 := small.trans (by decide)
  unfold loadsBytes
  rw [detectEncoding_text ascii positive encoded,
    codecs.utf8 bytes _ decoded]
  rfl

end Json

end Python
