import SovereignInference.Python.SurrogatePairs

/-!
# `json.loads`

The scanner reads one value at the start of a text and leaves the rest.  It
fails with a `JSONDecodeError`, except at an integer with more digits than the
interpreter converts, and at an array or object that is nested too deep.
-/

namespace Python

namespace Json

inductive ScanError where
  | decodeError
  | valueError
  | recursionError
  deriving DecidableEq

/-- What was read and the text after it, from the start of a text. -/
abbrev Scanner (α : Type) := Text → Except ScanError (α × Text)

def isJsonSpace (c : CodePoint) : Bool :=
  c.val == 0x20 || c.val == 0x09 || c.val == 0x0A || c.val == 0x0D

def skipSpace (s : Text) : Text := s.dropWhile isJsonSpace

def hexValue (c : CodePoint) : Option Nat :=
  if 0x30 ≤ c.val ∧ c.val ≤ 0x39 then some (c.val - 0x30)
  else if 0x61 ≤ c.val ∧ c.val ≤ 0x66 then some (c.val - 0x57)
  else if 0x41 ≤ c.val ∧ c.val ≤ 0x46 then some (c.val - 0x37)
  else none

/-- The code unit of four hexadecimal digits. -/
def hexUnit (a b c d : CodePoint) : Option CodePoint := do
  let a ← hexValue a
  let b ← hexValue b
  let c ← hexValue c
  let d ← hexValue d
  return Fin.ofNat _ (((a * 16 + b) * 16 + c) * 16 + d)

/-- The character of a one-letter escape. -/
def unescape (c : CodePoint) : Option CodePoint :=
  match c.val with
  | 0x22 => some 0x22
  | 0x5C => some 0x5C
  | 0x2F => some 0x2F
  | 0x62 => some 0x08
  | 0x66 => some 0x0C
  | 0x6E => some 0x0A
  | 0x72 => some 0x0D
  | 0x74 => some 0x09
  | _ => none

/-- The characters up to the closing quote, each with whether it was written
by its number. -/
def scanUnits : Text → Option (List (Bool × CodePoint) × Text)
  | [] => none
  | c :: rest =>
      if c = 0x22 then some ([], rest)
      else if c = 0x5C then
        match rest with
        | [] => none
        | letter :: rest =>
            if letter = 0x75 then
              match rest with
              | w :: x :: y :: z :: rest => do
                  let unit ← hexUnit w x y z
                  let (units, rest) ← scanUnits rest
                  return ((true, unit) :: units, rest)
              | _ => none
            else do
              let c ← unescape letter
              let (units, rest) ← scanUnits rest
              return ((false, c) :: units, rest)
      else if c.val < 0x20 then none
      else do
        let (units, rest) ← scanUnits rest
        return ((false, c) :: units, rest)

/-- Surrogate pairs written by their numbers are one character. -/
def joinUnits : List (Bool × CodePoint) → Text
  | [] => []
  | [(_, c)] => [c]
  | (escaped, c) :: (escaped', d) :: rest =>
      if escaped ∧ escaped' ∧ isHighSurrogate c ∧ isLowSurrogate d then
        joinSurrogates c d :: joinUnits rest
      else c :: joinUnits ((escaped', d) :: rest)

/-- A string after its opening quote. -/
def scanString (s : Text) : Option (Text × Text) :=
  (scanUnits s).map fun (units, rest) => (joinUnits units, rest)

/-- The whole digits of a number: zero, or digits that start with another. -/
def scanWhole : Text → Text × Text
  | [] => ([], [])
  | c :: rest =>
      if c.val = 0x30 then ([c], rest)
      else ((c :: rest).takeWhile isDigit, (c :: rest).dropWhile isDigit)

/-- A point with digits after it, if there is one. -/
def scanFraction : Text → Text × Text
  | [] => ([], [])
  | c :: rest =>
      if c.val = 0x2E ∧ rest.takeWhile isDigit ≠ [] then
        (c :: rest.takeWhile isDigit, rest.dropWhile isDigit)
      else ([], c :: rest)

def scanSign : Text → Text × Text
  | [] => ([], [])
  | c :: rest =>
      if c.val = 0x2B ∨ c.val = 0x2D then ([c], rest) else ([], c :: rest)

/-- An exponent, if there is one. -/
def scanExponent : Text → Text × Text
  | [] => ([], [])
  | c :: rest =>
      let (sign, digits) := scanSign rest
      if (c.val = 0x65 ∨ c.val = 0x45) ∧ digits.takeWhile isDigit ≠ [] then
        (c :: sign ++ digits.takeWhile isDigit, digits.dropWhile isDigit)
      else ([], c :: rest)

/-- A number: its whole part with the sign, the fraction with the exponent,
and the rest. -/
def scanNumeral (s : Text) : Option (Text × Text × Text) :=
  let (sign, body) : Text × Text :=
    if s.head? = some 0x2D then ([0x2D], s.tail) else ([], s)
  let (whole, rest) := scanWhole body
  if whole = [] then none
  else
    let (fraction, rest) := scanFraction rest
    let (exponent, rest) := scanExponent rest
    some (sign ++ whole, fraction ++ exponent, rest)

def scanNumber : Scanner Json := fun s =>
  match scanNumeral s with
  | none => .error .decodeError
  | some (whole, part, rest) =>
      if part = [] then
        match parseInt whole with
        | .ok value => .ok (.int value, rest)
        | .error _ => .error .valueError
      else
        match parseFloat (whole ++ part) with
        | .ok value => .ok (.float value, rest)
        | .error _ => .error .valueError

/-- The words that stand for values. -/
def words : List (Text × Json) :=
  [("null", .null), ("true", .bool true), ("false", .bool false),
    ("NaN", .float floatNan), ("Infinity", .float floatInfinity),
    ("-Infinity", .float (-floatInfinity))]

def scanWord (s : Text) : Option (Json × Text) :=
  (words.find? fun word => startsWith s word.1).map fun word =>
    (word.2, s.drop word.1.length)

/-- A value that is not an array or object. -/
def scanLeaf : Scanner Json := fun s =>
  if s.head? = some 0x22 then
    match scanString s.tail with
    | some (value, rest) => .ok (.str value, rest)
    | none => .error .decodeError
  else
    match scanWord s with
    | some (value, rest) => .ok (value, rest)
    | none => scanNumber s

/-- What stands after an item: the rest of the text after a comma or after the
closing bracket. -/
def scanSeparator (close : CodePoint) (s : Text) : Option (Bool × Text) :=
  match skipSpace s with
  | [] => none
  | c :: rest =>
      if c = close then some (false, rest)
      else if c = 0x2C then some (true, skipSpace rest)
      else none

/-- Items with commas between them, and the closing bracket.  The fuel is the
length of the text. -/
def scanSeries {α : Type} (scan : Scanner α) (close : CodePoint) :
    Nat → Scanner (List α)
  | 0, _ => .error .decodeError
  | fuel + 1, s => do
      let (item, rest) ← scan s
      match scanSeparator close rest with
      | none => throw .decodeError
      | some (false, rest) => return ([item], rest)
      | some (true, rest) =>
          let (items, rest) ← scanSeries scan close fuel rest
          return (item :: items, rest)

/-- Items up to a closing bracket, if there are any. -/
def scanBracket {α : Type} (scan : Scanner α) (close : CodePoint) :
    Scanner (List α) := fun s =>
  let s := skipSpace s
  if s.head? = some close then .ok ([], s.tail)
  else scanSeries scan close s.length s

/-- A key and the colon after it. -/
def scanKey (s : Text) : Option (Text × Text) := do
  if s.head? ≠ some 0x22 then none
  else
    let (key, rest) ← scanString s.tail
    let rest := skipSpace rest
    if rest.head? ≠ some 0x3A then none else some (key, skipSpace rest.tail)

def scanMember (scan : Scanner Json) : Scanner (Text × Json) := fun s =>
  match scanKey s with
  | none => .error .decodeError
  | some (key, rest) => do
      let (value, rest) ← scan rest
      return ((key, value), rest)

/-- The dict of members, with the last value of each key. -/
def dictOf (members : List (Text × Json)) : Dict :=
  members.foldl (fun fields member => fields.set member.1 member.2) []

/-- A value, from what scans a value inside it. -/
def scanValue (inside : Scanner Json) : Scanner Json := fun s =>
  if s.head? = some 0x5B then do
    let (items, rest) ← scanBracket inside 0x5D s.tail
    return (.arr items, rest)
  else if s.head? = some 0x7B then do
    let (members, rest) ← scanBracket (scanMember inside) 0x7D s.tail
    return (.obj (dictOf members), rest)
  else scanLeaf s

/-- A value in which at most so many arrays and objects are nested. -/
def scanOnce : Nat → Scanner Json
  | 0, s =>
      if s.head? = some 0x5B ∨ s.head? = some 0x7B then
        .error .recursionError
      else scanLeaf s
  | depth + 1, s => scanValue (scanOnce depth) s

/-- `json.loads(s)`, where so many arrays and objects may be nested. -/
def loads (depth : Nat) (s : Text) : Except ScanError Json :=
  if s.head? = some 0xFEFF then .error .decodeError
  else
    match scanOnce depth (skipSpace s) with
    | .ok (value, rest) =>
        if skipSpace rest = [] then .ok value else .error .decodeError
    | .error error => .error error

end Json

end Python
