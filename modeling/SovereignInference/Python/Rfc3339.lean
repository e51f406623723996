import SovereignInference.Python.DateTime
import Mathlib.Data.List.Lex
import Mathlib.Data.Prod.Lex
import Mathlib.Order.Fin.Basic
import Mathlib.Algebra.Order.Field.Rat
import Mathlib.Tactic.FieldSimp
import Mathlib.Tactic.Linarith
import Mathlib.Tactic.Ring

/-!
# Timestamps of RFC 3339

A timestamp is a date, a clock time, a fraction of a second and an offset.
Its instant is a minute of universal time with the seconds that have passed in
it, so that a leap second has its place.  Texts of timestamps are in the order
of the fields as they are written, and that is the order of the instants where
the offsets and the forms agree.
-/

namespace Python

theorem append_lt_append_iff {α : Type} [LinearOrder α]
    {front front' rest rest' : List α}
    (aligned : front.length = front'.length) :
    front ++ rest < front' ++ rest' ↔
      front < front' ∨ front = front' ∧ rest < rest' := by
  induction front generalizing front' with
  | nil =>
      obtain rfl := List.length_eq_zero_iff.mp aligned.symm
      simp
  | cons c front induction =>
      cases front' with
      | nil => cases aligned
      | cons c' front' =>
          have tails := induction (Nat.succ.inj aligned)
          simp only [List.cons_append, List.cons_lt_cons_iff, tails,
            List.cons.injEq]
          tauto

theorem append_eq_append_iff_of_aligned {α : Type}
    {front front' rest rest' : List α}
    (aligned : front.length = front'.length) :
    front ++ rest = front' ++ rest' ↔ front = front' ∧ rest = rest' := by
  constructor
  · intro same
    exact List.append_inj same aligned
  · rintro ⟨rfl, rfl⟩
    rfl

/-- Two texts compare like two lists of numbers, also with more behind. -/
structure SameOrder (left right : Text) (first second : List Nat) : Prop where
  aligned : left.length = right.length
  counted : first.length = second.length
  lt_iff : left < right ↔ first < second
  eq_iff : left = right ↔ first = second

theorem SameOrder.append {left right left' right' : Text}
    {first second first' second' : List Nat}
    (front : SameOrder left right first second)
    (rest : SameOrder left' right' first' second') :
    SameOrder (left ++ left') (right ++ right') (first ++ first')
      (second ++ second') := by
  constructor
  · rw [List.length_append, List.length_append, front.aligned, rest.aligned]
  · rw [List.length_append, List.length_append, front.counted, rest.counted]
  · rw [append_lt_append_iff front.aligned,
      append_lt_append_iff front.counted, front.lt_iff, front.eq_iff,
      rest.lt_iff]
  · rw [append_eq_append_iff_of_aligned front.aligned,
      append_eq_append_iff_of_aligned front.counted, front.eq_iff,
      rest.eq_iff]

theorem SameOrder.constant (c : CodePoint) : SameOrder [c] [c] [] [] := by
  constructor <;> simp

/-- The last decimal digits of a number. -/
def fixedDigits : (count value : Nat) → Text
  | 0, _ => []
  | count + 1, value =>
      Fin.ofNat _ (0x30 + value / 10 ^ count % 10) :: fixedDigits count value

theorem digit_lt_iff {d d' : Nat} (small : d < 10) (small' : d' < 10) :
    (Fin.ofNat 0x110000 (0x30 + d) < Fin.ofNat 0x110000 (0x30 + d') ↔
      d < d') ∧
    (Fin.ofNat 0x110000 (0x30 + d) = Fin.ofNat 0x110000 (0x30 + d') ↔
      d = d') := by
  rw [Fin.lt_def, Fin.ext_iff, Fin.val_ofNat, Fin.val_ofNat,
    Nat.mod_eq_of_lt (by omega), Nat.mod_eq_of_lt (by omega)]
  omega

/-- A place in front of smaller ones. -/
theorem leading_place {power d d' low low' : Nat} (below : low < power)
    (below' : low' < power) :
    (low + power * d < low' + power * d' ↔ d < d' ∨ d = d' ∧ low < low') ∧
    (low + power * d = low' + power * d' ↔ d = d' ∧ low = low') := by
  rcases Nat.lt_trichotomy d d' with first | rfl | last
  · have step := Nat.mul_le_mul_left power (Nat.succ_le_of_lt first)
    rw [Nat.mul_succ] at step
    omega
  · omega
  · have step := Nat.mul_le_mul_left power (Nat.succ_le_of_lt last)
    rw [Nat.mul_succ] at step
    omega

private theorem fixedDigits_sameOrder (count value other : Nat) :
    SameOrder (fixedDigits count value) (fixedDigits count other)
      [value % 10 ^ count] [other % 10 ^ count] := by
  induction count with
  | zero => constructor <;> simp [fixedDigits, Nat.mod_one]
  | succ count induction =>
      obtain ⟨aligned, _, less, same⟩ := induction
      obtain ⟨digitLess, digitSame⟩ := digit_lt_iff
        (Nat.mod_lt (value / 10 ^ count) (by decide : 0 < 10))
        (Nat.mod_lt (other / 10 ^ count) (by decide : 0 < 10))
      obtain ⟨placeLess, placeSame⟩ := @leading_place (10 ^ count)
        (value / 10 ^ count % 10) (other / 10 ^ count % 10) _ _
        (Nat.mod_lt value (Nat.pow_pos (by decide)))
        (Nat.mod_lt other (Nat.pow_pos (by decide)))
      simp only [List.cons_lt_cons_iff, List.cons.injEq, and_true,
        List.not_lt_nil, and_false, or_false] at less same
      constructor
      · simp [fixedDigits, aligned]
      · rfl
      · simp only [fixedDigits, List.cons_lt_cons_iff, digitLess, digitSame,
          less, Nat.mod_pow_succ, List.not_lt_nil, and_false, or_false,
          placeLess]
      · simp only [fixedDigits, List.cons.injEq, digitSame, same,
          Nat.mod_pow_succ, and_true, placeSame]

theorem SameOrder.field {count value other : Nat} (fits : value < 10 ^ count)
    (fits' : other < 10 ^ count) :
    SameOrder (fixedDigits count value) (fixedDigits count other)
      [value] [other] := by
  have ordered := fixedDigits_sameOrder count value other
  rwa [Nat.mod_eq_of_lt fits, Nat.mod_eq_of_lt fits'] at ordered

namespace Rfc3339

/-- The offset of a timestamp: the letter for universal time, or a sign with
hours and minutes. -/
inductive Zone where
  | utc (lower : Bool)
  | offset (negative : Bool) (hours minutes : Nat)
  deriving DecidableEq

namespace Zone

def Valid : Zone → Prop
  | utc _ => True
  | offset _ hours minutes => hours < 24 ∧ minutes < 60

/-- The offset in minutes. -/
def minutes : Zone → Int
  | utc _ => 0
  | offset negative hours minutes =>
      if negative then -(hours * 60 + minutes : Nat)
      else (hours * 60 + minutes : Nat)

def text : Zone → Text
  | utc lower => [if lower then 0x7A else 0x5A]
  | offset negative hours minutes =>
      (if negative then 0x2D else 0x2B) ::
        (fixedDigits 2 hours ++ [0x3A] ++ fixedDigits 2 minutes)

end Zone

structure Timestamp where
  year : Nat
  month : Nat
  day : Nat
  lowerT : Bool
  hour : Nat
  minute : Nat
  second : Nat
  fraction : List (Fin 10)
  zone : Zone
  year_lt : year < 10 ^ 4
  month_mem : 1 ≤ month ∧ month ≤ 12
  day_mem : 1 ≤ day ∧ day ≤ DateTime.daysInMonth year month
  hour_lt : hour < 24
  minute_lt : minute < 60
  -- the last second of a minute can be a leap second
  second_le : second ≤ 60
  zone_valid : zone.Valid

/-- The days of the years before, from year zero on. -/
def daysBeforeYear : Nat → Nat
  | 0 => 0
  | year + 1 =>
      daysBeforeYear year + if DateTime.isLeap year then 366 else 365

def dayNumber (year month day : Nat) : Nat :=
  daysBeforeYear year + DateTime.daysBeforeMonth year month + day

/-- The part of a second behind the point. -/
def fractionValue : List (Fin 10) → ℚ
  | [] => 0
  | digit :: rest => (digit.val + fractionValue rest) / 10

def fractionText : List (Fin 10) → Text
  | [] => []
  | digits => 0x2E :: digits.map fun digit => Fin.ofNat _ (0x30 + digit.val)

namespace Timestamp

variable (stamp : Timestamp)

/-- Date and clock time as they are written. -/
def clockText : Text :=
  fixedDigits 4 stamp.year ++ [0x2D] ++ fixedDigits 2 stamp.month ++ [0x2D] ++
    fixedDigits 2 stamp.day ++ [if stamp.lowerT then 0x74 else 0x54] ++
    fixedDigits 2 stamp.hour ++ [0x3A] ++ fixedDigits 2 stamp.minute ++
    [0x3A] ++ fixedDigits 2 stamp.second

/-- The fraction and the offset. -/
def tailText : Text := fractionText stamp.fraction ++ stamp.zone.text

def text : Text := stamp.clockText ++ stamp.tailText

/-- What the date and the clock show, whatever the offset. -/
def reading : List Nat :=
  [stamp.year, stamp.month, stamp.day, stamp.lowerT.toNat, stamp.hour,
    stamp.minute, stamp.second]

def minuteNumber : Nat :=
  (dayNumber stamp.year stamp.month stamp.day * 24 + stamp.hour) * 60 +
    stamp.minute

/-- The minute of universal time, and the seconds in it. -/
def instant : Int ×ₗ ℚ :=
  toLex (stamp.minuteNumber - stamp.zone.minutes,
    stamp.second + fractionValue stamp.fraction)

/-- The clock shows less, or the same with a fraction and an offset that sort
first. -/
def WrittenBefore (stamp other : Timestamp) : Prop :=
  stamp.reading < other.reading ∨
    stamp.reading = other.reading ∧ stamp.tailText < other.tailText

end Timestamp

private theorem separator_sameOrder (lower lower' : Bool) :
    SameOrder [if lower then 0x74 else 0x54] [if lower' then 0x74 else 0x54]
      [lower.toNat] [lower'.toNat] := by
  cases lower <;> cases lower' <;> constructor <;> decide

theorem clockText_sameOrder (stamp other : Timestamp) :
    SameOrder stamp.clockText other.clockText stamp.reading other.reading := by
  have months : ∀ stamp : Timestamp, stamp.month < 10 ^ 2 := fun stamp => by
    have bound := stamp.month_mem.2
    omega
  have days : ∀ stamp : Timestamp, stamp.day < 10 ^ 2 := fun stamp => by
    have bound := stamp.day_mem.2
    unfold DateTime.daysInMonth at bound
    split_ifs at bound <;> omega
  have hours : ∀ stamp : Timestamp, stamp.hour < 10 ^ 2 := fun stamp =>
    stamp.hour_lt.trans (by decide)
  have minutes : ∀ stamp : Timestamp, stamp.minute < 10 ^ 2 := fun stamp =>
    stamp.minute_lt.trans (by decide)
  have seconds : ∀ stamp : Timestamp, stamp.second < 10 ^ 2 := fun stamp =>
    stamp.second_le.trans_lt (by decide)
  have date := (((SameOrder.field stamp.year_lt other.year_lt).append
    (.constant 0x2D)).append (.field (months stamp) (months other))).append
      (.constant 0x2D)
  have toHour := ((date.append (.field (days stamp) (days other))).append
    (separator_sameOrder stamp.lowerT other.lowerT)).append
      (.field (hours stamp) (hours other))
  exact (((toHour.append (.constant 0x3A)).append
    (.field (minutes stamp) (minutes other))).append (.constant 0x3A)).append
      (.field (seconds stamp) (seconds other))

theorem Timestamp.text_lt_iff {stamp other : Timestamp} :
    stamp.text < other.text ↔ stamp.WrittenBefore other := by
  have ordered := clockText_sameOrder stamp other
  unfold text WrittenBefore
  rw [append_lt_append_iff ordered.aligned, ordered.lt_iff, ordered.eq_iff]

/-- What an offset starts with is not part of a fraction. -/
theorem Zone.text_head (zone : Zone) :
    ∃ c rest, zone.text = c :: rest ∧ c ≠ 0x2E ∧
      ∀ digit : Fin 10, c ≠ Fin.ofNat 0x110000 (0x30 + digit.val) := by
  cases zone with
  | utc lower =>
      cases lower
      · exact ⟨_, _, rfl, by decide, by decide⟩
      · exact ⟨_, _, rfl, by decide, by decide⟩
  | offset negative hours minutes =>
      cases negative
      · exact ⟨_, _, rfl, by decide, by decide⟩
      · exact ⟨_, _, rfl, by decide, by decide⟩

theorem Zone.text_injective {zone zone' : Zone} (valid : zone.Valid)
    (valid' : zone'.Valid) (same : zone.text = zone'.text) : zone = zone' := by
  cases zone with
  | utc lower =>
      cases zone' with
      | utc lower' =>
          cases lower <;> cases lower' <;> first | rfl | cases same
      | offset negative hours minutes =>
          have heads := (List.cons.inj same).1
          cases lower <;> cases negative <;> exact absurd heads (by decide)
  | offset negative hours minutes =>
      cases zone' with
      | utc lower =>
          have heads := (List.cons.inj same).1
          cases lower <;> cases negative <;> exact absurd heads (by decide)
      | offset negative' hours' minutes' =>
          obtain ⟨hoursLt, minutesLt⟩ := valid
          obtain ⟨hoursLt', minutesLt'⟩ := valid'
          have hoursOrder := @SameOrder.field 2 _ _
            (hoursLt.trans (by decide)) (hoursLt'.trans (by decide))
          have minutesOrder := @SameOrder.field 2 _ _
            (minutesLt.trans (by decide)) (minutesLt'.trans (by decide))
          have fields := (hoursOrder.append (.constant 0x3A)).append
            minutesOrder
          obtain ⟨sign, texts⟩ := List.cons.inj same
          have numbers := fields.eq_iff.mp texts
          simp only [List.append_nil, List.cons_append, List.nil_append,
            List.cons.injEq, and_true] at numbers
          obtain ⟨rfl, rfl⟩ := numbers
          cases negative <;> cases negative' <;> first
            | rfl
            | exact absurd sign (by decide)

private theorem digits_append_injective {digits digits' : List (Fin 10)}
    {zone zone' : Zone}
    (same : (digits.map fun digit => Fin.ofNat 0x110000 (0x30 + digit.val)) ++
        zone.text =
      (digits'.map fun digit => Fin.ofNat 0x110000 (0x30 + digit.val)) ++
        zone'.text) : digits = digits' ∧ zone.text = zone'.text := by
  induction digits generalizing digits' with
  | nil =>
      cases digits' with
      | nil => exact ⟨rfl, same⟩
      | cons digit' rest' =>
          obtain ⟨c, rest, starts, _, noDigit⟩ := zone.text_head
          rw [starts] at same
          exact absurd (List.cons.inj same).1 (noDigit digit')
  | cons digit rest induction =>
      cases digits' with
      | nil =>
          obtain ⟨c, rest, starts, _, noDigit⟩ := zone'.text_head
          rw [starts] at same
          exact absurd (List.cons.inj same).1.symm (noDigit digit)
      | cons digit' rest' =>
          obtain ⟨first, others⟩ := List.cons.inj same
          obtain ⟨rfl, zones⟩ := induction others
          have sameDigit := (digit_lt_iff digit.isLt digit'.isLt).2.mp first
          exact ⟨by rw [Fin.ext sameDigit], zones⟩

private theorem Timestamp.tailText_injective {stamp other : Timestamp}
    (same : stamp.tailText = other.tailText) :
    stamp.fraction = other.fraction ∧ stamp.zone = other.zone := by
  unfold tailText at same
  obtain ⟨c, rest, starts, noPoint, _⟩ := stamp.zone.text_head
  obtain ⟨c', rest', starts', noPoint', _⟩ := other.zone.text_head
  have zones : ∀ texts : stamp.zone.text = other.zone.text,
      stamp.zone = other.zone := fun texts =>
    Zone.text_injective stamp.zone_valid other.zone_valid texts
  cases written : stamp.fraction with
  | nil =>
      cases written' : other.fraction with
      | nil =>
          rw [written, written'] at same
          exact ⟨rfl, zones same⟩
      | cons digit digits =>
          rw [written, written', starts] at same
          exact absurd (List.cons.inj same).1 noPoint
  | cons digit digits =>
      cases written' : other.fraction with
      | nil =>
          rw [written, written', starts'] at same
          exact absurd (List.cons.inj same).1.symm noPoint'
      | cons digit' digits' =>
          rw [written, written'] at same
          obtain ⟨sameDigits, texts⟩ :=
            digits_append_injective (List.cons.inj same).2
          exact ⟨sameDigits, zones texts⟩

theorem Timestamp.instant_congr {stamp other : Timestamp}
    (same : stamp.text = other.text) : stamp.instant = other.instant := by
  have ordered := clockText_sameOrder stamp other
  obtain ⟨clocks, tails⟩ :=
    (append_eq_append_iff_of_aligned ordered.aligned).mp same
  obtain ⟨fractions, zones⟩ := tailText_injective tails
  have fields := ordered.eq_iff.mp clocks
  unfold reading at fields
  simp only [List.cons.injEq, and_true] at fields
  obtain ⟨year, month, day, _, hour, minute, second⟩ := fields
  unfold instant minuteNumber
  rw [year, month, day, hour, minute, second, fractions, zones]

theorem daysBeforeMonth_succ {month : Nat} (year : Nat) (positive : 1 ≤ month) :
    DateTime.daysBeforeMonth year (month + 1) =
      DateTime.daysBeforeMonth year month + DateTime.daysInMonth year month := by
  obtain ⟨before, rfl⟩ := Nat.exists_eq_add_of_le' positive
  unfold DateTime.daysBeforeMonth
  simp [List.range_succ]

/-- A month ends before the next ones begin. -/
theorem month_end_le {month later : Nat} (year : Nat) (positive : 1 ≤ month)
    (after : month < later) :
    DateTime.daysBeforeMonth year month + DateTime.daysInMonth year month ≤
      DateTime.daysBeforeMonth year later := by
  induction later, after using Nat.le_induction with
  | base => rw [daysBeforeMonth_succ year positive]
  | succ later after induction =>
      rw [daysBeforeMonth_succ year (by omega)]
      exact Nat.le_add_right_of_le induction

theorem daysBeforeMonth_thirteen (year : Nat) :
    DateTime.daysBeforeMonth year 13 =
      if DateTime.isLeap year then 366 else 365 := by
  unfold DateTime.daysBeforeMonth DateTime.daysInMonth
  split_ifs <;> simp [List.range_succ]

theorem daysBeforeYear_mono : Monotone daysBeforeYear :=
  monotone_nat_of_le_succ fun year => by
    rw [daysBeforeYear]
    exact Nat.le_add_right _ _

namespace Timestamp

variable {stamp other : Timestamp}

private theorem inYear_le (stamp : Timestamp) :
    DateTime.daysBeforeMonth stamp.year stamp.month + stamp.day ≤
      if DateTime.isLeap stamp.year then 366 else 365 := by
  have ends := month_end_le stamp.year stamp.month_mem.1
    (Nat.lt_succ_of_le stamp.month_mem.2)
  rw [daysBeforeMonth_thirteen] at ends
  have inMonth := stamp.day_mem.2
  omega

/-- Dates are counted in the order of the calendar. -/
theorem dayNumber_lt
    (before : [stamp.year, stamp.month, stamp.day] <
      [other.year, other.month, other.day]) :
    dayNumber stamp.year stamp.month stamp.day <
      dayNumber other.year other.month other.day := by
  simp only [List.cons_lt_cons_iff, List.not_lt_nil, and_false, or_false]
    at before
  have first := other.day_mem.1
  unfold dayNumber
  rcases before with year | ⟨sameYear, month | ⟨sameMonth, day⟩⟩
  · have inYear := stamp.inYear_le
    have years := daysBeforeYear_mono (Nat.succ_le_of_lt year)
    rw [Nat.succ_eq_add_one, daysBeforeYear] at years
    omega
  · have inMonth := stamp.day_mem.2
    have months := month_end_le stamp.year stamp.month_mem.1 month
    rw [← sameYear]
    omega
  · rw [← sameYear, ← sameMonth]
    omega

theorem fractionValue_bounds (digits : List (Fin 10)) :
    0 ≤ fractionValue digits ∧ fractionValue digits < 1 := by
  induction digits with
  | nil => simp [fractionValue]
  | cons digit rest induction =>
      have small : (digit.val : ℚ) ≤ 9 := by
        exact_mod_cast Nat.le_of_lt_succ digit.isLt
      have nonneg : (0 : ℚ) ≤ digit.val := by exact_mod_cast digit.val.zero_le
      unfold fractionValue
      constructor
      · linarith only [induction.1, nonneg]
      · linarith only [induction.2, small]

/-- The later reading of clocks with one offset is at the later instant. -/
theorem instant_lt_of_reading_lt (sameZone : stamp.zone = other.zone)
    (sameLetter : stamp.lowerT = other.lowerT)
    (before : stamp.reading < other.reading) :
    stamp.instant < other.instant := by
  have hour := stamp.hour_lt
  have minute := stamp.minute_lt
  unfold instant minuteNumber
  rw [Prod.Lex.toLex_lt_toLex, sameZone]
  dsimp only
  by_cases sameDay : [stamp.year, stamp.month, stamp.day] =
      [other.year, other.month, other.day]
  · simp only [List.cons.injEq, and_true] at sameDay
    obtain ⟨year, month, day⟩ := sameDay
    unfold reading at before
    rw [year, month, day, sameLetter] at before
    simp only [List.cons_lt_cons_iff, lt_irrefl, true_and, false_or,
      and_false, or_false] at before
    rw [year, month, day]
    rcases before with hours | ⟨sameHour, minutes | ⟨sameMinute, seconds⟩⟩
    · left
      omega
    · left
      omega
    · right
      refine ⟨by rw [sameHour, sameMinute], ?_⟩
      have whole : (stamp.second : ℚ) + 1 ≤ other.second := by
        exact_mod_cast seconds
      have low := (fractionValue_bounds other.fraction).1
      have high := (fractionValue_bounds stamp.fraction).2
      linarith only [whole, low, high]
  · left
    have days := @dayNumber_lt stamp other (by
      unfold reading at before
      simp only [List.cons_lt_cons_iff, List.not_lt_nil, and_false, or_false,
        List.cons.injEq, and_true] at before sameDay ⊢
      tauto)
    omega

theorem fractionText_lt {digits digits' : List (Fin 10)}
    (sameLength : digits.length = digits'.length)
    (less : fractionValue digits < fractionValue digits') :
    fractionText digits < fractionText digits' := by
  have written : ∀ {digits digits' : List (Fin 10)},
      digits.length = digits'.length →
        fractionValue digits < fractionValue digits' →
          (digits.map fun digit => Fin.ofNat 0x110000 (0x30 + digit.val)) <
            digits'.map fun digit => Fin.ofNat 0x110000 (0x30 + digit.val) := by
    intro digits
    induction digits with
    | nil =>
        intro digits' sameLength less
        obtain rfl := List.length_eq_zero_iff.mp sameLength.symm
        exact absurd less (lt_irrefl _)
    | cons digit rest induction =>
        intro digits' sameLength less
        cases digits' with
        | nil => cases sameLength
        | cons digit' rest' =>
            obtain ⟨digitLess, digitSame⟩ :=
              digit_lt_iff digit.isLt digit'.isLt
            simp only [List.map_cons, List.cons_lt_cons_iff, digitLess,
              digitSame]
            have low := (fractionValue_bounds rest).1
            have high := (fractionValue_bounds rest').2
            unfold fractionValue at less
            rcases Nat.lt_trichotomy digit.val digit'.val with
              first | same | last
            · exact .inl first
            · refine .inr ⟨same, induction (Nat.succ.inj sameLength) ?_⟩
              rw [same] at less
              linarith only [less]
            · have whole : (digit'.val : ℚ) + 1 ≤ digit.val := by
                exact_mod_cast last
              linarith only [less, whole, low, high]
  have digitsLess := written sameLength less
  cases digits with
  | nil =>
      obtain rfl := List.length_eq_zero_iff.mp sameLength.symm
      exact absurd less (lt_irrefl _)
  | cons digit rest =>
      cases digits' with
      | nil => cases sameLength
      | cons digit' rest' =>
          unfold fractionText
          rw [List.cons_lt_cons_iff]
          exact .inr ⟨rfl, digitsLess⟩

private theorem fractionText_aligned {digits digits' : List (Fin 10)}
    (sameLength : digits.length = digits'.length) :
    (fractionText digits).length = (fractionText digits').length := by
  cases digits with
  | nil =>
      obtain rfl := List.length_eq_zero_iff.mp sameLength.symm
      rfl
  | cons digit rest =>
      cases digits' with
      | nil => cases sameLength
      | cons digit' rest' => simpa [fractionText] using sameLength

/-- In one form, with one offset and as many digits, texts are in the order of
the instants. -/
theorem writtenBefore_of_uniform (sameZone : stamp.zone = other.zone)
    (sameLetter : stamp.lowerT = other.lowerT)
    (sameDigits : stamp.fraction.length = other.fraction.length)
    (earlier : stamp.instant < other.instant) : stamp.WrittenBefore other := by
  rcases lt_trichotomy stamp.reading other.reading with less | same | more
  · exact .inl less
  · refine .inr ⟨same, ?_⟩
    have fields := same
    unfold reading at fields
    simp only [List.cons.injEq, and_true] at fields
    obtain ⟨year, month, day, _, hour, minute, second⟩ := fields
    unfold instant minuteNumber at earlier
    rw [year, month, day, hour, minute, second, sameZone,
      Prod.Lex.toLex_lt_toLex] at earlier
    simp only [lt_irrefl, true_and, false_or, add_lt_add_iff_left] at earlier
    have texts := fractionText_lt sameDigits earlier
    unfold tailText
    rw [append_lt_append_iff (fractionText_aligned sameDigits)]
    exact .inl texts
  · exact absurd earlier (instant_lt_of_reading_lt sameZone.symm
      sameLetter.symm more).not_gt

end Timestamp

end Rfc3339

end Python
