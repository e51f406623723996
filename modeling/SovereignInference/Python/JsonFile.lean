import SovereignInference.Python.JsonChars
import SovereignInference.Python.JsonCompact
import SovereignInference.Python.Utf8

/-!
# JSON in text files

In a file read as text, lines end in newlines, however they end in the file.
What `json.dumps` writes is ASCII without carriage returns, so it is read from
a file as it was written.
-/

namespace Python

/-- Lines that end in newlines. -/
def universalNewlines : Text → Text
  | [] => []
  | [c] => if c.val = 0x0D then [0x0A] else [c]
  | c :: d :: rest =>
      if c.val = 0x0D then
        if d.val = 0x0A then 0x0A :: universalNewlines rest
        else 0x0A :: universalNewlines (d :: rest)
      else c :: universalNewlines (d :: rest)

/-- `path.read_text(encoding="utf-8")` of the bytes in the file, if it does not
raise. -/
def readText (bytes : Bytes) : Option Text :=
  (decodeUtf8 bytes).map universalNewlines

/-- ASCII without carriage returns. -/
def PlainAscii (s : Text) : Prop := ∀ c ∈ s, c.val < 0x80 ∧ c.val ≠ 0x0D

instance (s : Text) : Decidable (PlainAscii s) :=
  List.decidableBAll (fun c : CodePoint => c.val < 0x80 ∧ c.val ≠ 0x0D) s

private theorem universalNewlines_plain {s : Text} (plain : PlainAscii s) :
    universalNewlines s = s := by
  induction s using universalNewlines.induct with
  | case1 => rfl
  | case2 c isReturn => exact absurd isReturn (plain c List.mem_cons_self).2
  | case3 c notReturn =>
      rw [universalNewlines, if_neg notReturn]
  | case4 c _ _ isReturn =>
      exact absurd isReturn (plain c List.mem_cons_self).2
  | case5 c _ _ isReturn =>
      exact absurd isReturn (plain c List.mem_cons_self).2
  | case6 c d rest notReturn induction =>
      rw [universalNewlines, if_neg notReturn,
        induction (List.forall_mem_cons.mp plain).2]

/-- Plain text is read as it was written. -/
theorem readText_plain {s : Text} (plain : PlainAscii s) :
    ∃ bytes, encodeUtf8 s = .ok bytes ∧ readText bytes = some s := by
  have encodable : Encodable s := by
    intro c member
    have small := (plain c member).1
    simp only [isSurrogate, Bool.and_eq_false_iff, decide_eq_false_iff_not]
    omega
  obtain ⟨bytes, encoded⟩ := (encodeUtf8_isOk s).mpr encodable
  refine ⟨bytes, encoded, ?_⟩
  unfold readText
  rw [decodeUtf8_eq_some.mpr encoded, Option.map_some,
    universalNewlines_plain plain]

namespace Json

private theorem hexChar_plain (digit : Nat) (small : digit < 16) :
    (hexDigits.hexChar digit).val < 0x80 ∧
      (hexDigits.hexChar digit).val ≠ 0x0D := by
  have all : ∀ d : Fin 16, (hexDigits.hexChar d).val < 0x80 ∧
      (hexDigits.hexChar d).val ≠ 0x0D := by
    decide
  exact all ⟨digit, small⟩

private theorem escapeUnit_plain (unit : Nat) :
    PlainAscii (escapeUnit unit) := by
  unfold escapeUnit
  intro c member
  rcases List.mem_append.mp member with start | digit
  · have plain : PlainAscii (text "\\u") := by decide
    exact plain c start
  · obtain ⟨place, _, rfl⟩ := List.mem_map.mp digit
    exact hexChar_plain _ (Nat.mod_lt _ (by decide))

private theorem escapeAscii_plain (c : CodePoint) :
    PlainAscii (escapeAscii c) := by
  have escapes : ∀ s ∈ [text "\\\"", text "\\\\", text "\\n", text "\\r",
      text "\\t", text "\\f", text "\\b"], PlainAscii s := by
    decide
  unfold escapeAscii
  split
  case h_8 =>
    split_ifs with printed basic
    · intro d member
      obtain rfl := List.mem_singleton.mp member
      omega
    · exact escapeUnit_plain _
    · exact List.forall_mem_append.mpr
        ⟨escapeUnit_plain _, escapeUnit_plain _⟩
  all_goals exact escapes _ (by simp)

theorem quoteAscii_plain (s : Text) : PlainAscii (quoteAscii s) := by
  unfold quoteAscii
  intro c member
  simp only [List.cons_append, List.mem_cons, List.mem_append,
    List.mem_flatMap, List.not_mem_nil, or_false] at member
  rcases member with rfl | ⟨d, _, escaped⟩ | rfl
  · decide
  · exact escapeAscii_plain d c escaped
  · decide

private theorem newlineIndent_plain (level : Nat) :
    PlainAscii (newlineIndent level) := by
  unfold newlineIndent
  refine List.forall_mem_cons.mpr ⟨by decide, ?_⟩
  intro c member
  rw [List.eq_of_mem_replicate member]
  decide

/-- **What is written is ASCII** without carriage returns. -/
theorem pretty_keeps :
    pretty.Keeps fun c => c.val < 0x80 ∧ c.val ≠ 0x0D where
  printed := by
    intro c printed
    unfold Printed at printed
    omega
  quote := quoteAscii_plain
  line := newlineIndent_plain
  gap := List.forall_mem_singleton.mpr (by decide)

theorem indented_plain {level : Nat} (value : Json) :
    PlainAscii (indented level value) := by
  rw [indented_eq]
  exact pretty_keeps.render value

mutual

theorem nesting_sorted_le : (value : Json) → nesting value.sorted ≤ nesting value
  | .null => le_rfl
  | .bool _ => le_rfl
  | .int _ => le_rfl
  | .float _ => le_rfl
  | .str _ => le_rfl
  | .arr items => Nat.succ_le_succ (nestingItems_sorted_le items)
  | .obj fields => by
      refine Nat.succ_le_succ (nestingFields_le.mpr fun field member => ?_)
      rw [List.mem_insertionSort] at member
      exact nestingFields_le.mp (nestingFields_sorted_le fields) field member

theorem nestingItems_sorted_le : (items : List Json) →
    nestingItems (sortedItems items) ≤ nestingItems items
  | [] => le_rfl
  | item :: rest =>
      max_le_max (nesting_sorted_le item) (nestingItems_sorted_le rest)

theorem nestingFields_sorted_le : (fields : List (Text × Json)) →
    nestingFields (sortedFields fields) ≤ nestingFields fields
  | [] => le_rfl
  | field :: rest =>
      max_le_max (nestingField_sorted_le field) (nestingFields_sorted_le rest)

theorem nestingField_sorted_le : (field : Text × Json) →
    nestingField (sortedField field) ≤ nestingField field
  | (_, value) => nesting_sorted_le value

end

/-- **What a file of a clean value holds**: the value with its keys in order,
unless too much is nested. -/
theorem exists_file {value : Json} (distinct : value.DistinctKeys)
    (clean : value.Clean) {levels : Nat} (fits : nesting value ≤ levels)
    (depth : Nat) :
    ∃ written bytes, dumpIndented levels 0 value = .ok written ∧
      encodeUtf8 written = .ok bytes ∧ readText bytes = some written ∧
      loads depth written =
        if nesting value ≤ depth then .ok value.sorted
        else .error .recursionError := by
  have short := Clean.shortIntegers value clean
  obtain ⟨bytes, encoded, read⟩ := readText_plain (@indented_plain 0 value)
  refine ⟨indented 0 value, bytes, ?_, encoded, read, ?_⟩
  · rw [dumpIndented_eq_ok (Nat.zero_le _)]
    exact ⟨short, by rwa [Nat.zero_add], rfl⟩
  · have kept : ∀ s, Encodable s → Python.rejoined s = s := fun s plain =>
      (rejoined_eq_iff s).mpr (unpaired_of_encodable plain)
    rw [loads_indented short, readBack, reloaded_clean kept distinct clean]

end Json

end Python
