import SovereignInference.Python.SortedJson
import SovereignInference.Python.SurrogatePairs

/-!
# `json.dumps` with indentation

The writer with `indent=2` and `sort_keys=True` escapes every character that
is not printed ASCII.  It fails at an integer with more digits than the
interpreter converts, and at an array or object that is nested too deep.
-/

namespace Python

open Effects

namespace Json

/-- A code unit of UTF-16 in hexadecimal digits. -/
def escapeUnit (unit : Nat) : Text := text "\\u" ++ hexDigits 4 unit

/-- A character inside a JSON string of ASCII characters. -/
def escapeAscii (c : CodePoint) : Text :=
  match c.val with
  | 0x22 => text "\\\""
  | 0x5C => text "\\\\"
  | 0x0A => text "\\n"
  | 0x0D => text "\\r"
  | 0x09 => text "\\t"
  | 0x0C => text "\\f"
  | 0x08 => text "\\b"
  | n =>
      if 0x20 ≤ n ∧ n ≤ 0x7E then [c]
      else if n < 0x10000 then escapeUnit n
      else escapeUnit (0xD800 + (n - 0x10000) / 0x400) ++
        escapeUnit (0xDC00 + (n - 0x10000) % 0x400)

def quoteAscii (s : Text) : Text := 0x22 :: s.flatMap escapeAscii ++ [0x22]

def floatText (x : Float) : Text :=
  if x.isNaN then "NaN"
  else if x.isFinite then floatRepr x
  else if floatNegative x then "-Infinity"
  else "Infinity"

/-- The start of a line. -/
def newlineIndent (level : Nat) : Text :=
  0x0A :: List.replicate (2 * level) 0x20

/-- Items on lines of their own between brackets. -/
def bracketed (opening closing : CodePoint) (level : Nat)
    (items : List Text) : Text :=
  if items = [] then [opening, closing]
  else
    opening :: newlineIndent (level + 1) ++
      join (0x2C :: newlineIndent (level + 1)) items ++
      newlineIndent level ++ [closing]

def indentedMember (member : Text × Text) : Text :=
  quoteAscii member.1 ++ text ": " ++ member.2

mutual

/-- `json.dumps(x, indent=2, sort_keys=True)` inside so many arrays and
objects, where so many may be nested. -/
def dumpIndented (levels level : Nat) : Json → Except PyExc Text
  | .null => .ok "null"
  | .bool value => .ok (if value then "true" else "false")
  | .int value => intRepr value
  | .float value => .ok (floatText value)
  | .str value => .ok (quoteAscii value)
  | .arr items =>
      if levels ≤ level then .error .recursionError
      else do
        let written ← dumpIndentedItems levels (level + 1) items
        return bracketed 0x5B 0x5D level written
  | .obj fields =>
      if levels ≤ level then .error .recursionError
      else do
        let members ← dumpIndentedFields levels (level + 1) fields
        return bracketed 0x7B 0x7D level
          ((sortMembers members).map indentedMember)

def dumpIndentedItems (levels level : Nat) :
    List Json → Except PyExc (List Text)
  | [] => .ok []
  | item :: rest => do
      let written ← dumpIndented levels level item
      return written :: (← dumpIndentedItems levels level rest)

def dumpIndentedFields (levels level : Nat) :
    List (Text × Json) → Except PyExc (List (Text × Text))
  | [] => .ok []
  | field :: rest => do
      let written ← dumpIndentedField levels level field
      return written :: (← dumpIndentedFields levels level rest)

def dumpIndentedField (levels level : Nat) :
    Text × Json → Except PyExc (Text × Text)
  | (key, value) => do return (key, ← dumpIndented levels level value)

end

mutual

/-- How many arrays and objects are nested. -/
def nesting : Json → Nat
  | .arr items => nestingItems items + 1
  | .obj fields => nestingFields fields + 1
  | _ => 0

def nestingItems : List Json → Nat
  | [] => 0
  | item :: rest => max (nesting item) (nestingItems rest)

def nestingFields : List (Text × Json) → Nat
  | [] => 0
  | field :: rest => max (nestingField field) (nestingFields rest)

def nestingField : Text × Json → Nat
  | (_, value) => nesting value

end

mutual

/-- No integer has too many digits. -/
def ShortIntegers : Json → Prop
  | .int value => value.natAbs < 10 ^ maxStrDigits
  | .arr items => ShortIntegersItems items
  | .obj fields => ShortIntegersFields fields
  | _ => True

def ShortIntegersItems : List Json → Prop
  | [] => True
  | item :: rest => ShortIntegers item ∧ ShortIntegersItems rest

def ShortIntegersFields : List (Text × Json) → Prop
  | [] => True
  | field :: rest => ShortIntegersField field ∧ ShortIntegersFields rest

def ShortIntegersField : Text × Json → Prop
  | (_, value) => ShortIntegers value

end

mutual

/-- The text of a value inside so many arrays and objects. -/
def indented (level : Nat) : Json → Text
  | .null => "null"
  | .bool value => if value then "true" else "false"
  | .int value => intText value
  | .float value => floatText value
  | .str value => quoteAscii value
  | .arr items => bracketed 0x5B 0x5D level (indentedItems (level + 1) items)
  | .obj fields => bracketed 0x7B 0x7D level
      ((sortMembers (indentedFields (level + 1) fields)).map indentedMember)

def indentedItems (level : Nat) : List Json → List Text
  | [] => []
  | item :: rest => indented level item :: indentedItems level rest

def indentedFields (level : Nat) : List (Text × Json) → List (Text × Text)
  | [] => []
  | field :: rest => indentedField level field :: indentedFields level rest

def indentedField (level : Nat) : Text × Json → Text × Text
  | (key, value) => (key, indented level value)

end

mutual

/-- The writer succeeds exactly if the integers are short and not too much is
nested. -/
theorem dumpIndented_eq_ok {levels level : Nat} (inside : level ≤ levels) :
    (value : Json) → (result : Text) →
      (dumpIndented levels level value = .ok result ↔ ShortIntegers value ∧
        level + nesting value ≤ levels ∧ indented level value = result)
  | .null, result => by
      simp [dumpIndented, ShortIntegers, nesting, indented, inside]
  | .bool value, result => by
      simp [dumpIndented, ShortIntegers, nesting, indented, inside]
  | .int value, result => by
      simp only [dumpIndented, intRepr, ShortIntegers, nesting, indented,
        Nat.add_zero, inside, true_and]
      split_ifs with short
      · simp [short]
      · simp [short]
  | .float value, result => by
      simp [dumpIndented, ShortIntegers, nesting, indented, inside]
  | .str value, result => by
      simp [dumpIndented, ShortIntegers, nesting, indented, inside]
  | .arr items, result => by
      simp only [dumpIndented, ShortIntegers, nesting, indented]
      split_ifs with deep
      · refine iff_of_false nofun ?_
        rintro ⟨_, atMost, _⟩
        omega
      · have each := dumpIndentedItems_eq_ok (by omega : level + 1 ≤ levels)
          items
        simp only [bind_eq_ok, each]
        rw [← Nat.add_assoc, Nat.add_right_comm]
        constructor
        · rintro ⟨_, ⟨short, atMost, rfl⟩, same⟩
          cases same
          exact ⟨short, atMost, rfl⟩
        · rintro ⟨short, atMost, rfl⟩
          exact ⟨_, ⟨short, atMost, rfl⟩, rfl⟩
  | .obj fields, result => by
      simp only [dumpIndented, ShortIntegers, nesting, indented]
      split_ifs with deep
      · refine iff_of_false nofun ?_
        rintro ⟨_, atMost, _⟩
        omega
      · have each := dumpIndentedFields_eq_ok (by omega : level + 1 ≤ levels)
          fields
        simp only [bind_eq_ok, each]
        rw [← Nat.add_assoc, Nat.add_right_comm]
        constructor
        · rintro ⟨_, ⟨short, atMost, rfl⟩, same⟩
          cases same
          exact ⟨short, atMost, rfl⟩
        · rintro ⟨short, atMost, rfl⟩
          exact ⟨_, ⟨short, atMost, rfl⟩, rfl⟩

theorem dumpIndentedItems_eq_ok {levels level : Nat}
    (inside : level ≤ levels) : (items : List Json) → (results : List Text) →
      (dumpIndentedItems levels level items = .ok results ↔
        ShortIntegersItems items ∧ level + nestingItems items ≤ levels ∧
          indentedItems level items = results)
  | [], results => by
      simp [dumpIndentedItems, ShortIntegersItems, nestingItems,
        indentedItems, inside]
  | item :: rest, results => by
      have first := dumpIndented_eq_ok inside item
      have others := dumpIndentedItems_eq_ok inside rest
      simp only [dumpIndentedItems, ShortIntegersItems, nestingItems,
        indentedItems, bind_eq_ok, first, others]
      constructor
      · rintro ⟨_, ⟨short, atMost, rfl⟩, _, ⟨shortRest, atMostRest, rfl⟩, same⟩
        cases same
        exact ⟨⟨short, shortRest⟩, by omega, rfl⟩
      · rintro ⟨⟨short, shortRest⟩, atMost, rfl⟩
        exact ⟨_, ⟨short, by omega, rfl⟩, _, ⟨shortRest, by omega, rfl⟩, rfl⟩

theorem dumpIndentedFields_eq_ok {levels level : Nat}
    (inside : level ≤ levels) :
    (fields : List (Text × Json)) → (results : List (Text × Text)) →
      (dumpIndentedFields levels level fields = .ok results ↔
        ShortIntegersFields fields ∧ level + nestingFields fields ≤ levels ∧
          indentedFields level fields = results)
  | [], results => by
      simp [dumpIndentedFields, ShortIntegersFields, nestingFields,
        indentedFields, inside]
  | field :: rest, results => by
      have first := dumpIndentedField_eq_ok inside field
      have others := dumpIndentedFields_eq_ok inside rest
      simp only [dumpIndentedFields, ShortIntegersFields, nestingFields,
        indentedFields, bind_eq_ok, first, others]
      constructor
      · rintro ⟨_, ⟨short, atMost, rfl⟩, _, ⟨shortRest, atMostRest, rfl⟩, same⟩
        cases same
        exact ⟨⟨short, shortRest⟩, by omega, rfl⟩
      · rintro ⟨⟨short, shortRest⟩, atMost, rfl⟩
        exact ⟨_, ⟨short, by omega, rfl⟩, _, ⟨shortRest, by omega, rfl⟩, rfl⟩

theorem dumpIndentedField_eq_ok {levels level : Nat}
    (inside : level ≤ levels) :
    (field : Text × Json) → (result : Text × Text) →
      (dumpIndentedField levels level field = .ok result ↔
        ShortIntegersField field ∧ level + nestingField field ≤ levels ∧
          indentedField level field = result)
  | (key, value), result => by
      have written := dumpIndented_eq_ok inside value
      simp only [dumpIndentedField, ShortIntegersField, nestingField,
        indentedField, bind_eq_ok, written]
      constructor
      · rintro ⟨_, ⟨short, atMost, rfl⟩, same⟩
        cases same
        exact ⟨short, atMost, rfl⟩
      · rintro ⟨short, atMost, rfl⟩
        exact ⟨_, ⟨short, atMost, rfl⟩, rfl⟩

end

end Json

end Python
