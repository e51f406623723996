import SovereignInference.Python.Float
import Mathlib.Data.List.Sort

/-!
# JSON values

The values `json.loads` makes, the operations of Python on them, and
`json.dumps` without ASCII escapes and without NaN.
-/

namespace Python

open Effects

inductive Json where
  | null
  | bool (value : Bool)
  | int (value : Int)
  | float (value : Float)
  | str (value : Text)
  | arr (items : List Json)
  | obj (fields : List (Text × Json))

/-- A `dict` with string keys, in insertion order. -/
abbrev Dict := List (Text × Json)

namespace Dict

/-- `key in d` together with `d[key]`. -/
def find (fields : Dict) (key : Text) : Option Json :=
  (fields.find? (·.1 = key)).map (·.2)

/-- `d.get(key)`. -/
def get (fields : Dict) (key : Text) : Json := (find fields key).getD .null

/-- `{k: v for k, v in d.items() if k != key}`. -/
def without (fields : Dict) (key : Text) : Dict :=
  fields.filter (·.1 ≠ key)

/-- `d[key] = value`. -/
def set (fields : Dict) (key : Text) (value : Json) : Dict :=
  if fields.any (·.1 = key) then
    fields.map fun field => if field.1 = key then (key, value) else field
  else fields ++ [(key, value)]

@[simp] theorem find_nil (key : Text) : find [] key = none := rfl

theorem find_cons (field : Text × Json) (rest : Dict) (key : Text) :
    find (field :: rest) key =
      if field.1 = key then some field.2 else find rest key := by
  unfold find
  rw [List.find?_cons]
  by_cases here : field.1 = key
  · simp [here]
  · simp [here]

theorem find_append (fields others : Dict) (key : Text) :
    find (fields ++ others) key = (find fields key).or (find others key) := by
  unfold find
  rw [List.find?_append]
  cases List.find? (fun field => decide (field.1 = key)) fields <;> simp

theorem find_eq_none {fields : Dict} {key : Text}
    (absent : fields.any (·.1 = key) = false) : find fields key = none := by
  unfold find
  rw [Option.map_eq_none_iff, List.find?_eq_none]
  intro field member
  exact List.any_eq_false.mp absent field member

theorem find_mem {fields : Dict} {key : Text} {value : Json}
    (found : find fields key = some value) : (key, value) ∈ fields := by
  obtain ⟨field, isField, rfl⟩ := Option.map_eq_some_iff.mp found
  have sameKey := List.find?_some isField
  rw [← of_decide_eq_true sameKey]
  exact List.mem_of_find?_eq_some isField

theorem find_set_self (fields : Dict) (key : Text) (value : Json) :
    (fields.set key value).find key = some value := by
  unfold set
  split_ifs with known
  · induction fields with
    | nil => simp at known
    | cons field rest induction =>
        rw [List.map_cons, find_cons]
        by_cases here : field.1 = key
        · simp [here]
        · rw [List.any_cons, decide_eq_false here, Bool.false_or] at known
          rw [if_neg here, if_neg here]
          exact induction known
  · rw [find_append, find_eq_none (Bool.not_eq_true _ ▸ known), find_cons]
    simp

theorem find_set_other {fields : Dict} {key other : Text} {value : Json}
    (different : other ≠ key) :
    (fields.set key value).find other = fields.find other := by
  unfold set
  split_ifs with known
  · clear known
    induction fields with
    | nil => rfl
    | cons field rest induction =>
        rw [List.map_cons, find_cons, find_cons, induction]
        by_cases here : field.1 = key
        · have notOther : field.1 ≠ other := by
            rw [here]
            exact different.symm
          rw [if_pos here, if_neg different.symm, if_neg notOther]
        · rw [if_neg here]
  · rw [find_append, find_cons, if_neg different.symm]
    cases find fields other <;> rfl

end Dict

namespace Json

/-- `isinstance(x, str)`, with the string. -/
def asStr : Json → Option Text
  | .str s => some s
  | _ => none

/-- `isinstance(x, dict)`, with the dict. -/
def asDict : Json → Option Dict
  | .obj fields => some fields
  | _ => none

theorem asDict_eq_some {value : Json} {fields : Dict} :
    value.asDict = some fields ↔ value = .obj fields := by
  cases value <;> simp [asDict]

/-- `isinstance(x, list)`, with the list. -/
def asList : Json → Option (List Json)
  | .arr items => some items
  | _ => none

theorem asStr_eq_some {value : Json} {s : Text} :
    value.asStr = some s ↔ value = .str s := by
  cases value <;> simp [asStr]

theorem asList_eq_some {value : Json} {items : List Json} :
    value.asList = some items ↔ value = .arr items := by
  cases value <;> simp [asList]

def truthy : Json → Bool
  | .null => false
  | .bool value => value
  | .int value => value ≠ 0
  | .float value => value != 0
  | .str value => value ≠ []
  | .arr items => !items.isEmpty
  | .obj fields => !fields.isEmpty

/-- `x == s` for a string `s`. -/
def isStr (s : Text) : Json → Bool
  | .str value => value = s
  | _ => false

theorem isStr_iff {s : Text} {value : Json} :
    value.isStr s = true ↔ value = .str s := by
  cases value <;> simp [isStr]

/-- A value equals at most one string. -/
theorem isStr_other {s t : Text} {value : Json} (isOne : value.isStr s = true)
    (different : s ≠ t) : value.isStr t = false := by
  rw [isStr_iff.mp isOne]
  simpa [isStr] using different

/-- `n == x` for an integer and a float. -/
def intEqFloat (n : Int) (x : Float) : Bool :=
  let (numerator, denominator) := floatScaled x 0
  x.isFinite && n.natAbs * denominator == numerator &&
    (n == 0 || floatNegative x == decide (n < 0))

/-- `x == y` for numbers. -/
def numberEq : Json → Json → Bool
  | .float x, .float y => x == y
  | .float x, .int n | .int n, .float x => intEqFloat n x
  | .float x, .bool b | .bool b, .float x => intEqFloat b.toInt x
  | .int m, .int n => m == n
  | .int m, .bool b | .bool b, .int m => m == b.toInt
  | .bool a, .bool b => a == b
  | _, _ => false

mutual

/-- `x == y`. -/
def pyEq : Json → Json → Bool
  | .null, .null => true
  | .str s, .str t => s == t
  | .arr items, .arr others => itemsEq items others
  | .obj fields, .obj others =>
      fields.length == others.length && fieldsEq fields others
  | x, y => numberEq x y

def itemsEq : List Json → List Json → Bool
  | [], [] => true
  | item :: items, other :: others => pyEq item other && itemsEq items others
  | _, _ => false

/-- Every field of the first dict equals the field of the second. -/
def fieldsEq : List (Text × Json) → Dict → Bool
  | [], _ => true
  | field :: fields, others => fieldEq field others && fieldsEq fields others

def fieldEq : Text × Json → Dict → Bool
  | (key, value), others => (others.find key).any (pyEq value)

end

theorem pyEq_str_left {s : Text} {value : Json} :
    (str s).pyEq value = true ↔ value = .str s := by
  cases value with
  | str t =>
      simp only [pyEq, beq_iff_eq, Json.str.injEq]
      exact eq_comm
  | _ => simp [pyEq, numberEq]

theorem pyEq_str_right {s : Text} {value : Json} :
    value.pyEq (.str s) = true ↔ value = .str s := by
  cases value <;> simp [pyEq, numberEq]

/-- `s in x` for a string `s`. -/
def contains (s : Text) : Json → Except PyExc Bool
  | .str value => .ok (decide (s <:+: value))
  | .arr items => .ok (items.any (isStr s))
  | .obj fields => .ok (fields.any (·.1 = s))
  | _ => .error .typeError

/-- The items that iterating over a value gives: the characters of a string
and the keys of a dict. -/
def iterate : Json → Except PyExc (List Json)
  | .arr items => .ok items
  | .str value => .ok (value.map fun c => .str [c])
  | .obj fields => .ok (fields.map fun field => .str field.1)
  | _ => .error .typeError

/-- `float(x)`. -/
def toFloat : Json → Except PyExc Float
  | .bool value => floatOfInt value.toInt
  | .int value => floatOfInt value
  | .float value => .ok value
  | .str value => parseFloat value
  | _ => .error .typeError

def hexDigits (width value : Nat) : Text :=
  (List.range width).reverse.map fun place => hexChar (value / 16 ^ place % 16)
where
  hexChar (digit : Nat) : CodePoint :=
    Fin.ofNat _ (if digit < 10 then 0x30 + digit else 0x57 + digit)

/-- A character inside a JSON string. -/
def escapeJson (c : CodePoint) : Text :=
  match c.val with
  | 0x22 => text "\\\""
  | 0x5C => text "\\\\"
  | 0x0A => text "\\n"
  | 0x0D => text "\\r"
  | 0x09 => text "\\t"
  | 0x0C => text "\\f"
  | 0x08 => text "\\b"
  | n => if n < 0x20 then text "\\u" ++ hexDigits 4 n else [c]

def quoteJson (s : Text) : Text := 0x22 :: s.flatMap escapeJson ++ [0x22]

/-- Join with a separator. -/
def join (separator : Text) : List Text → Text
  | [] => []
  | [item] => item
  | item :: rest => item ++ separator ++ join separator rest

/-- Members of an object by key, keeping the order of equal keys. -/
def sortMembers (members : List (Text × Text)) : List (Text × Text) :=
  members.insertionSort fun a b => ¬ b.1 < a.1

def writeMember (member : Text × Text) : Text :=
  quoteJson member.1 ++ 0x3A :: member.2

mutual

/-- `json.dumps` with compact separators, `ensure_ascii=False` and
`allow_nan=False`. -/
def dump (sortKeys : Bool) : Json → Except PyExc Text
  | .null => .ok "null"
  | .bool value => .ok (if value then "true" else "false")
  | .int value => intRepr value
  | .float value =>
      if value.isFinite then .ok (floatRepr value) else .error .valueError
  | .str value => .ok (quoteJson value)
  | .arr items => do
      let written ← dumpItems sortKeys items
      return 0x5B :: join [0x2C] written ++ [0x5D]
  | .obj fields => do
      let members ← dumpFields sortKeys fields
      let members := if sortKeys then sortMembers members else members
      return 0x7B :: join [0x2C] (members.map writeMember) ++ [0x7D]

def dumpItems (sortKeys : Bool) : List Json → Except PyExc (List Text)
  | [] => .ok []
  | item :: rest => do
      let written ← dump sortKeys item
      return written :: (← dumpItems sortKeys rest)

def dumpFields (sortKeys : Bool) :
    List (Text × Json) → Except PyExc (List (Text × Text))
  | [] => .ok []
  | field :: rest => do
      let written ← dumpField sortKeys field
      return written :: (← dumpFields sortKeys rest)

def dumpField (sortKeys : Bool) : Text × Json → Except PyExc (Text × Text)
  | (key, value) => do return (key, ← dump sortKeys value)

end

/-- The bytes of a dumped value. -/
def dumpBytes (sortKeys : Bool) (value : Json) : Except PyExc Bytes := do
  encodeUtf8 (← dump sortKeys value)

/-- A character inside a quoted Python string. -/
def escapePython (isPrintable : CodePoint → Bool) (quote c : CodePoint) :
    Text :=
  let n := c.val
  if c = quote ∨ n = 0x5C then [0x5C, c]
  else if n = 0x09 then text "\\t"
  else if n = 0x0A then text "\\n"
  else if n = 0x0D then text "\\r"
  else if n < 0x20 ∨ n = 0x7F then text "\\x" ++ hexDigits 2 n
  else if n < 0x7F ∨ isPrintable c then [c]
  else if n < 0x100 then text "\\x" ++ hexDigits 2 n
  else if n < 0x10000 then text "\\u" ++ hexDigits 4 n
  else text "\\U" ++ hexDigits 8 n

/-- `repr` of a string. -/
def strRepr (isPrintable : CodePoint → Bool) (s : Text) : Text :=
  let quote : CodePoint :=
    if s.any (·.val = 0x27) ∧ ¬ s.any (·.val = 0x22) then 0x22 else 0x27
  quote :: s.flatMap (escapePython isPrintable quote) ++ [quote]

mutual

/-- `repr(x)`. -/
def repr (isPrintable : CodePoint → Bool) : Json → Except PyExc Text
  | .null => .ok "None"
  | .bool value => .ok (if value then "True" else "False")
  | .int value => intRepr value
  | .float value => .ok (floatRepr value)
  | .str value => .ok (strRepr isPrintable value)
  | .arr items => do
      let written ← reprItems isPrintable items
      return 0x5B :: join ", " written ++ [0x5D]
  | .obj fields => do
      let written ← reprFields isPrintable fields
      return 0x7B :: join ", " written ++ [0x7D]

def reprItems (isPrintable : CodePoint → Bool) :
    List Json → Except PyExc (List Text)
  | [] => .ok []
  | item :: rest => do
      let written ← repr isPrintable item
      return written :: (← reprItems isPrintable rest)

def reprFields (isPrintable : CodePoint → Bool) :
    List (Text × Json) → Except PyExc (List Text)
  | [] => .ok []
  | field :: rest => do
      let written ← reprField isPrintable field
      return written :: (← reprFields isPrintable rest)

def reprField (isPrintable : CodePoint → Bool) :
    Text × Json → Except PyExc Text
  | (key, value) => do
      return strRepr isPrintable key ++ text ": " ++ (← repr isPrintable value)

end

/-- `str(x)`. -/
def toStr (isPrintable : CodePoint → Bool) : Json → Except PyExc Text
  | .str value => .ok value
  | other => repr isPrintable other

end Json

end Python
