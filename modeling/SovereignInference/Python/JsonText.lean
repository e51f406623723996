import SovereignInference.Python.JsonInOrder

/-!
# `json.dumps` of members in their order

Without `sort_keys` the writer keeps the order of members.  Its text is ASCII,
and what is read of it is what was written, unless surrogates were paired.
-/

namespace Python.Json

open Arithmetic Effects

section

variable (style : Style)

mutual

/-- `json.dumps(x)` in a style, inside so many brackets. -/
def dumpText (level : Nat) : Json → Except PyExc Text
  | .null => .ok "null"
  | .bool value => .ok (if value then "true" else "false")
  | .int value => intRepr value
  | .float value => .ok (floatText value)
  | .str value => .ok (style.quote value)
  | .arr items => do
      return style.bracketed 0x5B 0x5D level
        (← dumpTextItems (level + 1) items)
  | .obj fields => do
      let members ← dumpTextFields (level + 1) fields
      return style.bracketed 0x7B 0x7D level (members.map style.member)

def dumpTextItems (level : Nat) : List Json → Except PyExc (List Text)
  | [] => .ok []
  | item :: rest => do
      let written ← dumpText level item
      return written :: (← dumpTextItems level rest)

def dumpTextFields (level : Nat) :
    List (Text × Json) → Except PyExc (List (Text × Text))
  | [] => .ok []
  | field :: rest => do
      let written ← dumpTextField level field
      return written :: (← dumpTextFields level rest)

def dumpTextField (level : Nat) : Text × Json → Except PyExc (Text × Text)
  | (key, value) => do return (key, ← dumpText level value)

end

mutual

theorem dumpText_write (level : Nat) : (value : Json) →
    ShortIntegers value →
      dumpText style level value = .ok (style.write level value)
  | .null, _ | .bool _, _ | .float _, _ | .str _, _ => rfl
  | .int value, short => by
      change value.natAbs < 10 ^ maxStrDigits at short
      rw [dumpText, Style.write, intRepr, if_pos short]
  | .arr items, short => by
      rw [dumpText, dumpTextItems_write (level + 1) items short]
      rfl
  | .obj fields, short => by
      rw [dumpText, dumpTextFields_write (level + 1) fields short]
      rfl

theorem dumpTextItems_write (level : Nat) : (items : List Json) →
    ShortIntegersItems items →
      dumpTextItems style level items = .ok (style.writeItems level items)
  | [], _ => rfl
  | item :: rest, short => by
      rw [dumpTextItems, dumpText_write level item short.1,
        dumpTextItems_write level rest short.2]
      rfl

theorem dumpTextFields_write (level : Nat) :
    (fields : List (Text × Json)) → ShortIntegersFields fields →
      dumpTextFields style level fields =
        .ok (style.writeFields level fields)
  | [], _ => rfl
  | field :: rest, short => by
      rw [dumpTextFields, dumpTextField_write level field short.1,
        dumpTextFields_write level rest short.2]
      rfl

theorem dumpTextField_write (level : Nat) : (field : Text × Json) →
    ShortIntegersField field →
      dumpTextField style level field = .ok (style.writeField level field)
  | (_, value), short => by
      rw [dumpTextField, dumpText_write level value short]
      rfl

end

end

private theorem no_spaces (_ : Nat) : ∀ c ∈ ([] : Text), isJsonSpace c = true :=
  List.forall_mem_nil _

/-- The separators `", "` and `": "`. -/
def spaced : Style where
  toLayout := { pretty with
    line := fun _ => [0x20]
    lines := fun _ => List.forall_mem_singleton.mpr rfl }
  first := fun _ => []
  last := fun _ => []
  firsts := no_spaces
  lasts := no_spaces

/-- `json.dumps(x)` -/
def dumps (value : Json) : Except PyExc Text := dumpText spaced 0 value

/-- **What `json.dumps` writes is read as it was.** -/
theorem loads_dumps {value : Json} (distinct : value.DistinctKeys)
    (clean : value.Clean) (depth : Nat) :
    ∃ s, dumps value = .ok s ∧ loads depth s = readWhole depth value := by
  refine ⟨_, dumpText_write spaced 0 value (Clean.shortIntegers value clean),
    loads_write ?_ distinct clean depth⟩
  intro s encodable
  exact (rejoined_eq_iff s).mpr (unpaired_of_encodable encodable)

/-- Every character is printed ASCII. -/
def isPrinted (s : Text) : Bool := s.all fun c => decide (Printed c)

theorem printed_of_isPrinted {s : Text} (printed : isPrinted s = true) :
    ∀ c ∈ s, Printed c := fun c member =>
  of_decide_eq_true (List.all_eq_true.mp printed c member)

private theorem hexChar_printed {digit : Nat} (small : digit < 16) :
    Printed (hexDigits.hexChar digit) := by
  have all : ∀ d : Fin 16, Printed (hexDigits.hexChar d) := by decide
  exact all ⟨digit, small⟩

private theorem escapeUnit_printed (unit : Nat) :
    ∀ c ∈ escapeUnit unit, Printed c := by
  unfold escapeUnit
  refine List.forall_mem_append.mpr ⟨printed_of_isPrinted (by decide), ?_⟩
  intro c digit
  obtain ⟨place, _, rfl⟩ := List.mem_map.mp digit
  exact hexChar_printed (Nat.mod_lt _ (by decide))

private theorem escapeAscii_printed (c : CodePoint) :
    ∀ d ∈ escapeAscii c, Printed d := by
  have escapes : ∀ s ∈ [text "\\\"", text "\\\\", text "\\n", text "\\r",
      text "\\t", text "\\f", text "\\b"], isPrinted s = true := by
    decide
  unfold escapeAscii
  split
  case h_8 =>
    split_ifs with printed basic
    · refine List.forall_mem_singleton.mpr ⟨printed.1, ?_⟩
      omega
    · exact escapeUnit_printed _
    · exact List.forall_mem_append.mpr
        ⟨escapeUnit_printed _, escapeUnit_printed _⟩
  all_goals exact printed_of_isPrinted (escapes _ (by simp))

private theorem quoteAscii_printed (s : Text) :
    ∀ c ∈ quoteAscii s, Printed c := by
  unfold quoteAscii
  rw [List.cons_append, List.forall_mem_cons, List.forall_mem_append,
    List.forall_mem_flatMap]
  exact ⟨by decide, fun c _ => escapeAscii_printed c,
    List.forall_mem_singleton.mpr (by decide)⟩

private theorem spaced_keeps : spaced.Keeps Printed where
  printed := fun _ printed => printed
  quote := quoteAscii_printed
  line := fun _ => List.forall_mem_singleton.mpr (by decide)
  gap := List.forall_mem_singleton.mpr (by decide)
  first := fun _ => List.forall_mem_nil _
  last := fun _ => List.forall_mem_nil _

/-- **What `json.dumps` writes is one line** of printed ASCII. -/
theorem dumps_printed {value : Json} (distinct : value.DistinctKeys)
    (short : ShortIntegers value) {s : Text} (dumped : dumps value = .ok s) :
    ∀ c ∈ s, Printed c := by
  unfold dumps at dumped
  rw [dumpText_write spaced 0 value short] at dumped
  cases dumped
  exact spaced_keeps.write distinct

end Python.Json
