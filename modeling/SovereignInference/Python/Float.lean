import SovereignInference.Python.Numeral

/-!
# Floating-point numbers

A Python `float` is a `Float`; arithmetic and comparison are its own.  Here are
the conversions: from integers and strings, rounding to six places, the fixed
format with six places and the shortest representation.
-/

namespace Python

/-- `float(n)` of an integer. -/
def floatOfInt (n : Int) : Except PyExc Float :=
  let x := Float.ofInt n
  if x.isFinite then .ok x else .error .overflowError

/-- `x / y`. -/
def trueDiv (x y : Float) : Except PyExc Float :=
  if y == 0 then .error .zeroDivisionError else .ok (x / y)

/-- `max(x, y)`: the first argument unless the second is greater. -/
def floatMax (x y : Float) : Float := if x < y then y else x

/-- A numeral: its digits without the point, and the power of ten to scale
them by. -/
structure Numeral where
  negative : Bool
  digits : Text
  exponent : Int
  deriving DecidableEq

def isDigit (c : CodePoint) : Bool := (asciiDigit c).isSome

def digitsValue (digits : Text) : Nat :=
  digits.foldl (fun value c => value * 10 + (c.val - 0x30)) 0

/-- The exponent part of a numeral: nothing, or `e`, a sign and digits. -/
def readExponent : Text → Option Int
  | [] => some 0
  | c :: rest =>
      let (negative, digits) := readSign rest
      if (c.val = 0x65 ∨ c.val = 0x45) ∧ digits ≠ [] ∧ digits.all isDigit then
        let magnitude : Int := digitsValue digits
        some (if negative then -magnitude else magnitude)
      else none

/-- A numeral with optional sign, point and exponent. -/
def readNumeral (s : Text) : Option Numeral :=
  let (negative, s) := readSign s
  let whole := s.takeWhile isDigit
  let rest := s.dropWhile isDigit
  let pointed := rest.head? == some 0x2E
  let fraction := if pointed then (rest.drop 1).takeWhile isDigit else []
  let rest := if pointed then (rest.drop 1).dropWhile isDigit else rest
  if whole ++ fraction = [] then none
  else
    (readExponent rest).map fun exponent =>
      ⟨negative, whole ++ fraction, exponent - fraction.length⟩

/-- Drop the underscores of a numeral, each of which stands between digits. -/
def dropUnderscores : Bool → Text → Option Text
  | _, [] => some []
  | afterDigit, c :: rest =>
      if c.val = 0x5F then
        if afterDigit && (rest.head?.any isDigit) then
          dropUnderscores false rest
        else none
      else (dropUnderscores (isDigit c) rest).map (c :: ·)

def floatOfNumeral (numeral : Numeral) : Float :=
  let magnitude := Float.ofScientific (digitsValue numeral.digits)
    (numeral.exponent < 0) numeral.exponent.natAbs
  if numeral.negative then -magnitude else magnitude

def floatInfinity : Float := 1 / 0

def floatNan : Float := 0 / 0

/-- `float(s)`. -/
def parseFloat (s : Text) : Except PyExc Float :=
  match dropUnderscores false (strip isAsciiSpace (toAsciiNumeral s)) with
  | none => .error .valueError
  | some s =>
      match readNumeral s with
      | some numeral => .ok (floatOfNumeral numeral)
      | none =>
          let (negative, word) := readSign s
          let word := asciiLower word
          if word = text "inf" ∨ word = text "infinity" then
            .ok (if negative then -floatInfinity else floatInfinity)
          else if word = text "nan" then .ok floatNan
          else .error .valueError

def floatNegative (x : Float) : Bool := 2 ^ 63 ≤ x.toBits.toNat

/-- The magnitude of a finite float times `10 ^ places`, as a fraction. -/
def floatScaled (x : Float) (places : Int) : Nat × Nat :=
  let bits := x.toBits.toNat
  let biased := bits / 2 ^ 52 % 2 ^ 11
  let fraction := bits % 2 ^ 52
  let mantissa := if biased = 0 then fraction else fraction + 2 ^ 52
  let exponent : Int := (max biased 1 : Nat) - 1075
  (mantissa * 2 ^ exponent.toNat * 10 ^ places.toNat,
    2 ^ (-exponent).toNat * 10 ^ (-places).toNat)

/-- The nearest integer to a fraction, ties to even. -/
def roundHalfEven (numerator denominator : Nat) : Nat :=
  let floor := numerator / denominator
  let twice := 2 * (numerator % denominator)
  if twice < denominator then floor
  else if denominator < twice then floor + 1
  else floor + floor % 2

/-- The magnitude of a finite float in units of `10 ^ -places`. -/
def floatUnits (x : Float) (places : Int) : Nat :=
  let (numerator, denominator) := floatScaled x places
  roundHalfEven numerator denominator

/-- `round(x, 6)`. -/
def round6 (x : Float) : Float :=
  if x.isFinite then
    let magnitude := Float.ofScientific (floatUnits x 6) true 6
    if floatNegative x then -magnitude else magnitude
  else x

/-- The text of an infinity or a NaN. -/
def nonFiniteText (x : Float) : Text :=
  if x.isNaN then "nan" else if floatNegative x then "-inf" else "inf"

def leftPad (width : Nat) (s : Text) : Text :=
  List.replicate (width - s.length) 0x30 ++ s

/-- `f"{x:.6f}"`. -/
def format6f (x : Float) : Text :=
  if x.isFinite then
    let units := floatUnits x 6
    let magnitude := natText (units / 10 ^ 6) ++
      0x2E :: leftPad 6 (natText (units % 10 ^ 6))
    if floatNegative x then 0x2D :: magnitude else magnitude
  else nonFiniteText x

/-- The decimal exponent of the leading digit of a positive fraction. -/
def leadingExponent (numerator denominator : Nat) : Int :=
  let estimate : Int :=
    (natText numerator).length - (natText denominator).length
  if denominator * 10 ^ estimate.toNat ≤
      numerator * 10 ^ (-estimate).toNat then estimate
  else estimate - 1

/-- The nearest decimal with the given number of significant digits that
reads back as the float, if there is one. -/
def shortestWith (x : Float) (leading : Int) (count : Nat) : Option Nat :=
  let places : Int := count - 1 - leading
  let (numerator, denominator) := floatScaled x places
  let readsBack (digits : Nat) : Bool :=
    (Float.ofScientific digits (0 < places) places.natAbs).toBits.toNat ==
      x.toBits.toNat % 2 ^ 63
  let floor := numerator / denominator
  let nearest := roundHalfEven numerator denominator
  let other := if nearest = floor then floor + 1 else floor
  [nearest, other].find? readsBack

/-- The digits of the shortest decimal that reads back as the float, with the
position of the point. -/
def shortestDigits (x : Float) : Text × Int :=
  let (numerator, denominator) := floatScaled x 0
  if numerator = 0 then ([0x30], 1)
  else
    let leading := leadingExponent numerator denominator
    let digits := (List.range 17).findSome? fun count =>
      (shortestWith x leading (count + 1)).map fun digits =>
        (digits, (count : Int) - leading)
    match digits with
    | none => ([], 0)
    | some (value, places) =>
        let written := natText value
        (rstrip 0x30 written, written.length - places)

/-- `repr(x)`. -/
def floatRepr (x : Float) : Text :=
  if x.isFinite then
    let (digits, point) := shortestDigits x
    let count : Int := digits.length
    let magnitude : Text :=
      if -4 < point ∧ point ≤ 16 then
        if point ≤ 0 then
          text "0." ++ List.replicate (-point).toNat 0x30 ++ digits
        else if count ≤ point then
          digits ++ List.replicate (point - count).toNat 0x30 ++ text ".0"
        else digits.take point.toNat ++ 0x2E :: digits.drop point.toNat
      else
        let tail := digits.drop 1
        let exponent := point - 1
        digits.take 1 ++ (if tail = [] then [] else 0x2E :: tail) ++
          0x65 :: (if exponent < 0 then 0x2D else 0x2B) ::
          leftPad 2 (natText exponent.natAbs)
    if floatNegative x then 0x2D :: magnitude else magnitude
  else nonFiniteText x

/-- One step of the compensated summation of `sum`: the running total and the
compensation. -/
def sumStep (state : Float × Float) (x : Float) : Float × Float :=
  let (total, compensation) := state
  let next := total + x
  let lost := if x.abs ≤ total.abs then (total - next) + x
    else (x - next) + total
  (next, compensation + lost)

/-- `sum` of floats. -/
def floatSum (values : List Float) : Float :=
  let (total, compensation) := values.foldl sumStep (0, 0)
  if compensation != 0 && compensation.isFinite then total + compensation
  else total

example : floatRepr (0.1 + 0.2) = "0.30000000000000004" := by decide +kernel

end Python
