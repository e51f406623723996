import SovereignInference.Python.Float

/-!
# Dates and times

A `datetime` is a wall-clock time in microseconds since the first day of the
calendar, with the offset of its time zone if it has one.  The offset of a
naive time is a matter of the machine, so conversions take it as a parameter.
-/

namespace Python

structure DateTime where
  micros : Int
  offset : Option Int
  deriving DecidableEq

namespace DateTime

def isLeap (year : Nat) : Bool :=
  year % 4 = 0 ∧ (year % 100 ≠ 0 ∨ year % 400 = 0)

def daysBeforeYear (year : Nat) : Nat :=
  (year - 1) * 365 + (year - 1) / 4 - (year - 1) / 100 + (year - 1) / 400

def daysInMonth (year month : Nat) : Nat :=
  if month = 2 then if isLeap year then 29 else 28
  else if [4, 6, 9, 11].contains month then 30
  else 31

def daysBeforeMonth (year month : Nat) : Nat :=
  ((List.range (month - 1)).map fun i => daysInMonth year (i + 1)).sum

/-- The number of a day, the first of January of year one being day one. -/
def ordinal (year month day : Nat) : Nat :=
  daysBeforeYear year + daysBeforeMonth year month + day

/-- Year, month and day of a day counted from zero. -/
def dateOfDay (day : Nat) : Nat × Nat × Nat :=
  let guess := day / 366 + 1
  let year := guess + ((List.range 30).takeWhile fun i =>
    daysBeforeYear (guess + i + 1) ≤ day).length
  let inYear := day - daysBeforeYear year
  let month := ((List.range 12).takeWhile fun i =>
    daysBeforeMonth year (i + 1) ≤ inYear).length
  (year, month, inYear - daysBeforeMonth year month + 1)

def maxYear : Nat := 9999

def daySeconds : Nat := 86400

/-- The microseconds of the calendar. -/
def calendarEnd : Int :=
  (daysBeforeYear (maxYear + 1) * daySeconds * 10 ^ 6 : Nat)

/-- Exactly `count` digits. -/
def readFixed : Nat → Nat → Text → Option (Nat × Text)
  | 0, value, rest => some (value, rest)
  | count + 1, value, c :: rest =>
      (asciiDigit c).bind fun digit =>
        readFixed count (value * 10 + digit) rest
  | _ + 1, _, [] => none

def hasAt (s : Text) (index : Nat) (c : CodePoint) : Bool := s[index]? == some c

def digitAt (s : Text) (index : Nat) : Bool := s[index]?.any isDigit

/-- Where the date ends. -/
def separatorIndex (s : Text) : Option Nat :=
  if s.length = 7 then some 7
  else if hasAt s 4 0x2D then
    if hasAt s 5 0x57 then
      if hasAt s 8 0x2D then
        if s.length = 9 then none
        else if digitAt s 10 then some 8
        else some 10
      else some 8
    else some 10
  else if hasAt s 4 0x57 then
    let digits := 7 + ((s.drop 7).takeWhile isDigit).length
    if digits < 9 then some digits
    else if digits % 2 = 0 then some 7
    else some 8
  else some 8

/-- The day of an ISO week date, counted like ordinals. -/
def isoWeekDay (year week day : Nat) : Option Nat :=
  let first := ordinal year 1 1
  let long := first % 7 = 4 ∨ (first % 7 = 3 ∧ isLeap year)
  if 1 ≤ year ∧ year ≤ maxYear ∧ 1 ≤ day ∧ day ≤ 7 ∧
      ((1 ≤ week ∧ week ≤ 52) ∨ (week = 53 ∧ long)) then
    let weekday := (first + 6) % 7
    let monday := if 3 < weekday then first + 7 - weekday else first - weekday
    some (monday + (week - 1) * 7 + (day - 1))
  else none

/-- The ordinal of a date. -/
def readDate (s : Text) : Option Nat := do
  let (year, rest) ← readFixed 4 0 s
  let dashed := rest.head? == some 0x2D
  let rest := if dashed then rest.drop 1 else rest
  if rest.head? = some 0x57 then
    let (week, rest) ← readFixed 2 0 (rest.drop 1)
    if rest = [] then isoWeekDay year week 1
    else
      if dashed && rest.head? != some 0x2D then none
      let (day, _) ← readFixed 1 0 (if dashed then rest.drop 1 else rest)
      isoWeekDay year week day
  else
    let (month, rest) ← readFixed 2 0 rest
    if dashed && rest.head? != some 0x2D then none
    let (day, _) ← readFixed 2 0 (if dashed then rest.drop 1 else rest)
    if 1 ≤ year ∧ 1 ≤ month ∧ month ≤ 12 ∧ 1 ≤ day ∧
        day ≤ daysInMonth year month then
      some (ordinal year month day)
    else none

/-- The fraction of a second, and whether something follows it. -/
def readFraction (s : Text) (more : Bool) : Option (Nat × Bool) := do
  let count := min 6 s.length
  let (value, rest) ← readFixed count 0 s
  let rest := rest.dropWhile isDigit
  return (value * 10 ^ (6 - count), (rest.head?.map (·.val != 0)).getD more)

/-- Hours, minutes and seconds from the one with the given index on, with the
fraction, and whether something follows.  `more` tells whether a time zone
follows the string. -/
def readClock : (left : Nat) → (first colons more : Bool) → Text →
    Option (List Nat × Nat × Bool)
  | 0, _, _, more, s => do
      let (fraction, follows) ← readFraction s more
      return ([], fraction, follows)
  | left + 1, first, colons, more, s => do
      let (value, rest) ← readFixed 2 0 s
      match rest with
      | [] => return ([value], 0, more)
      | [c] => if c.val < 0x80 then return ([value], 0, c.val ≠ 0) else none
      | c :: after =>
          let colons := if first then c.val = 0x3A else colons
          if colons ∧ c.val = 0x3A then
            let (values, tail) ← readClock left false colons more after
            return (value :: values, tail)
          else if c.val = 0x2E ∨ c.val = 0x2C then
            let (fraction, follows) ← readFraction after more
            return ([value], fraction, follows)
          else if !colons then
            let (values, tail) ← readClock left false colons more rest
            return (value :: values, tail)
          else none

/-- The microseconds of a clock time. -/
def clockMicros (values : List Nat) (fraction : Nat) : Nat :=
  (values.getD 0 0 * 3600 + values.getD 1 0 * 60 + values.getD 2 0) * 10 ^ 6 +
    fraction

/-- The offset of a time zone, the sign of which is given. -/
def readZone (negative : Bool) (s : Text) : Option Int := do
  let (values, fraction, follows) ← readClock 3 true true false s
  if follows then none
  let seconds := clockMicros values 0
  let magnitude : Int := if seconds = 0 then 0 else clockMicros values fraction
  if magnitude < daySeconds * 10 ^ 6 then
    return if negative then -magnitude else magnitude
  else none

/-- The time after the date: microseconds and offset. -/
def readTime (s : Text) : Option (Nat × Option Int) := do
  let isZone (c : CodePoint) : Bool := [0x2B, 0x2D, 0x5A].contains c.val
  let clock := s.takeWhile (!isZone ·)
  let zone := s.drop clock.length
  let (values, fraction, follows) ← readClock 3 true true (zone ≠ []) clock
  if 24 ≤ values.getD 0 0 ∨ 60 ≤ values.getD 1 0 ∨ 60 ≤ values.getD 2 0 then
    none
  let micros := clockMicros values fraction
  match zone with
  | [] => if follows then none else return (micros, none)
  | c :: rest =>
      if c.val = 0x5A then
        if rest.head?.any (·.val ≠ 0) then none else return (micros, some 0)
      else
        let offset ← readZone (c.val = 0x2D) rest
        return (micros, some offset)

/-- Replace the first surrogate in the place of a separator. -/
def sanitize (s : Text) : Text :=
  match [7, 8, 10].find? fun index => s[index]?.any isSurrogate with
  | some index => s.set index 0x54
  | none => s

/-- `datetime.fromisoformat(s)`; a failure is a `ValueError`. -/
def fromIsoFormat (s : Text) : Option DateTime := do
  let s := sanitize s
  if s.length < 7 ∨ s.any isSurrogate then none
  let index ← separatorIndex s
  let day ← readDate (s.take index)
  let (micros, offset) ← match s.drop index with
    | [] => some (0, none)
    | _ :: time => readTime time
  if day ≤ daysBeforeYear (maxYear + 1) then
    return ⟨((day - 1) * daySeconds * 10 ^ 6 + micros : Nat), offset⟩
  else none

/-- `moment.astimezone(UTC)`, as microseconds. -/
def toUtc (localOffset : Int → Except PyExc Int) (moment : DateTime) :
    Except PyExc Int := do
  let offset ← match moment.offset with
    | some offset => .ok offset
    | none => localOffset moment.micros
  let utc := moment.micros - offset
  if 0 ≤ utc ∧ utc < calendarEnd then return utc
  else throw .overflowError

/-- `moment + timedelta(microseconds=span)`. -/
def later (moment : DateTime) (span : Int) : Except PyExc DateTime :=
  let micros := moment.micros + span
  if 0 ≤ micros ∧ micros < calendarEnd then .ok { moment with micros }
  else .error .overflowError

def pad2 (value : Nat) : Text := leftPad 2 (natText value)

/-- `strftime("%Y-%m-%dT%H:%M:%SZ")` of a time in UTC. -/
def isoText (utc : Int) : Text :=
  let seconds := utc.toNat / 10 ^ 6
  let (year, month, day) := dateOfDay (seconds / daySeconds)
  let second := seconds % daySeconds
  natText year ++ 0x2D :: pad2 month ++ 0x2D :: pad2 day ++
    0x54 :: pad2 (second / 3600) ++ 0x3A :: pad2 (second / 60 % 60) ++
    0x3A :: pad2 (second % 60) ++ [0x5A]

end DateTime

end Python
