import SovereignInference.Python.Float
import Mathlib.Data.Rat.Defs
import Mathlib.Algebra.Order.Ring.Unbundled.Rat

/-!
# Decimal numbers

`decimal.Decimal` under the default context, with the precision of additions as
a parameter: a number of digits, or exact sums.  Reading a string is always
exact.  Comparing a NaN raises.
-/

namespace Python

inductive Decimal where
  | finite (negative : Bool) (coefficient : Nat) (exponent : Int)
  | infinity (negative : Bool)
  | nan (signaling : Bool)
  deriving DecidableEq

/-- The precision of the context: the digits kept, or all of them. -/
inductive Precision where
  | digits (count : Nat)
  | exact
  deriving DecidableEq

def defaultPrecision : Precision := .digits 28

namespace Decimal

def zero : Decimal := .finite false 0 0

/-- The bounds on exponents of an exactly read numeral. -/
def maxExponent : Int := 999999999999999999

def minTiny : Int := -1999999999999999997

def readsExactly (coefficient : Nat) (exponent : Int) : Bool :=
  if coefficient = 0 then minTiny ≤ exponent ∧ exponent ≤ maxExponent
  else
    minTiny ≤ exponent ∧
      exponent + (natText coefficient).length - 1 ≤ maxExponent

/-- Digits and spaces of every script in ASCII; underscores are dropped. -/
def toAscii (s : Text) : Text :=
  ((strip isSpace s).filter (·.val ≠ 0x5F)).map fun c =>
    if c.val < 0x80 then c
    else if isSpace c then 0x20
    else
      match decimalDigit c with
      | some digit => digitText digit
      | none => 0x3F

/-- Drop a literal from the start of a string. -/
def dropWord (s word : Text) : Option Text :=
  if startsWith (asciiLower s) word then some (s.drop word.length) else none

def readSpecial (s : Text) : Option Decimal :=
  let (negative, word) := readSign s
  if asciiLower word = text "inf" ∨ asciiLower word = text "infinity" then
    some (.infinity negative)
  else
    match dropWord word "nan", dropWord word "snan" with
    | some payload, _ =>
        if payload.all isDigit then some (.nan false) else none
    | none, some payload =>
        if payload.all isDigit then some (.nan true) else none
    | none, none => none

/-- `Decimal(s)`. -/
def parse (s : Text) : Except PyExc Decimal :=
  let s := toAscii s
  match readNumeral s with
  | some numeral =>
      let coefficient := digitsValue numeral.digits
      if readsExactly coefficient numeral.exponent then
        .ok (.finite numeral.negative coefficient numeral.exponent)
      else .error .invalidOperation
  | none =>
      match readSpecial s with
      | some special => .ok special
      | none => .error .invalidOperation

/-- `coefficient * 10 ^ exponent`. -/
def scaled (coefficient : Int) (exponent : Int) : ℚ :=
  if 0 ≤ exponent then (coefficient * 10 ^ exponent.toNat : Int)
  else mkRat coefficient (10 ^ (-exponent).toNat)

/-- The value of a finite number. -/
def value (negative : Bool) (coefficient : Nat) (exponent : Int) : ℚ :=
  scaled (if negative then -coefficient else coefficient) exponent

/-- The order of two numbers, unless one is a NaN. -/
def order : Decimal → Decimal → Option Ordering
  | .nan _, _ | _, .nan _ => none
  | .infinity a, .infinity b => some (compare b a)
  | .infinity negative, .finite .. => some (if negative then .lt else .gt)
  | .finite .., .infinity negative => some (if negative then .gt else .lt)
  | .finite a c e, .finite b d f => some (compare (value a c e) (value b d f))

/-- `x < y`. -/
def lt (x y : Decimal) : Except PyExc Bool :=
  match order x y with
  | some ordering => .ok (ordering == .lt)
  | none => .error .invalidOperation

/-- `x <= y`. -/
def le (x y : Decimal) : Except PyExc Bool :=
  match order x y with
  | some ordering => .ok (ordering != .gt)
  | none => .error .invalidOperation

def emax : Int := 999999

def emin : Int := -999999

/-- Drop digits of a coefficient, rounding half to even. -/
def shiftRight (coefficient count : Nat) : Nat :=
  roundHalfEven coefficient (10 ^ count)

/-- Round a finite result to the precision. -/
def finish (precision : Precision) (negative : Bool) (coefficient : Nat)
    (exponent : Int) : Except PyExc Decimal :=
  match precision with
  | .exact => .ok (.finite negative coefficient exponent)
  | .digits count =>
      let length := (natText coefficient).length
      let tiny := emin - (count - 1)
      if coefficient = 0 then
        .ok (.finite negative 0 (max tiny (min exponent emax)))
      else
        let excess := (max ((length : Int) - count) (tiny - exponent)).toNat
        let rounded := shiftRight coefficient excess
        let exponent := exponent + excess
        -- a carry to one digit more than the precision
        let carried := (natText rounded).length > count
        let rounded := if carried then rounded / 10 else rounded
        let exponent := if carried then exponent + 1 else exponent
        if exponent + (natText rounded).length - 1 > emax then
          .error .decimalOverflow
        else .ok (.finite negative rounded exponent)

/-- `x + y`. -/
def add (precision : Precision) : Decimal → Decimal → Except PyExc Decimal
  | .nan a, .nan b =>
      if a ∨ b then .error .invalidOperation else .ok (.nan false)
  | .nan signaling, _ | _, .nan signaling =>
      if signaling then .error .invalidOperation else .ok (.nan false)
  | .infinity a, .infinity b =>
      if a = b then .ok (.infinity a) else .error .invalidOperation
  | .infinity negative, .finite .. | .finite .., .infinity negative =>
      .ok (.infinity negative)
  | .finite a c e, .finite b d f =>
      let exponent := min e f
      let left : Int := c * 10 ^ (e - exponent).toNat
      let right : Int := d * 10 ^ (f - exponent).toNat
      let sum := (if a then -left else left) + (if b then -right else right)
      let negative := if sum = 0 then a && b else decide (sum < 0)
      finish precision negative sum.natAbs exponent

/-- `str(x)`. -/
def toText : Decimal → Text
  | .nan signaling => if signaling then "sNaN" else "NaN"
  | .infinity negative => if negative then "-Infinity" else "Infinity"
  | .finite negative coefficient exponent =>
      let digits := natText coefficient
      let adjusted := exponent + digits.length - 1
      let magnitude : Text :=
        if exponent ≤ 0 ∧ -6 ≤ adjusted then
          if exponent = 0 then digits
          else
            let point := digits.length + exponent
            if 0 < point then
              digits.take point.toNat ++ 0x2E :: digits.drop point.toNat
            else
              text "0." ++ List.replicate (-point).toNat 0x30 ++ digits
        else
          let tail := digits.drop 1
          digits.take 1 ++ (if tail = [] then [] else 0x2E :: tail) ++
            0x45 :: (if adjusted < 0 then 0x2D else 0x2B) ::
            natText adjusted.natAbs
      if negative then 0x2D :: magnitude else magnitude

end Decimal

end Python
