import SovereignInference.Python.Calendar
import SovereignInference.Python.FixedPoint

/-!
# Written times

A time in universal time is written to the second, with the year in as many
digits as it has.  It is read back as the same second if these are four, and
not at all before the year 1000.
-/

namespace Python.DateTime

/-- The character of this digit. -/
abbrev Digit (c : CodePoint) (digit : Nat) : Prop := asciiDigit c = some digit

variable {c c' : CodePoint} {d d' : Nat}

theorem Digit.bounds (isDigit : Digit c d) :
    0x30 ≤ c.val ∧ c.val ≤ 0x39 ∧ c.val = 0x30 + d := by
  unfold Digit asciiDigit at isDigit
  split_ifs at isDigit with inRange
  cases isDigit
  omega

theorem Digit.ne (isDigit : Digit c d) {other : CodePoint}
    (outside : other.val < 0x30 ∨ 0x39 < other.val) : c ≠ other := by
  rintro rfl
  have bounds := isDigit.bounds
  omega

theorem digit_text {value : Nat} (small : value < 10) :
    Digit (digitText value) value :=
  asciiDigit_digitText small

theorem pad2_digits {value : Nat} (small : value < 100) :
    ∃ tens ones, pad2 value = [tens, ones] ∧ Digit tens (value / 10) ∧
      Digit ones (value % 10) := by
  have each : ∀ value : Fin 100, pad2 value =
      [digitText (value / 10), digitText (value % 10)] := by
    decide +kernel
  exact ⟨_, _, each ⟨value, small⟩, digit_text (by omega),
    digit_text (by omega)⟩

theorem natText_four {value : Nat} (low : 1000 ≤ value) (high : value < 10000) :
    ∃ first second third fourth,
      natText value = [first, second, third, fourth] ∧
        Digit first (value / 1000) ∧ Digit second (value / 100 % 10) ∧
          Digit third (value / 10 % 10) ∧ Digit fourth (value % 10) := by
  have fuel : 4 ≤ Nat.log2 value + 1 := by
    have wide : 8 ≤ Nat.log2 value := (Nat.le_log2 (by omega)).mpr (by omega)
    omega
  obtain ⟨more, enough⟩ := Nat.exists_eq_add_of_le' fuel
  have hundreds : value / 10 / 10 = value / 100 := Nat.div_div_eq_div_mul _ _ _
  have thousands : value / 10 / 10 / 10 = value / 1000 := by
    rw [hundreds, Nat.div_div_eq_div_mul]
  refine ⟨digitText (value / 1000), digitText (value / 100 % 10),
    digitText (value / 10 % 10), digitText (value % 10), ?_,
    digit_text (by omega), digit_text (by omega), digit_text (by omega),
    digit_text (by omega)⟩
  unfold natText
  rw [enough]
  simp only [natDigits]
  rw [if_neg (by omega), if_neg (by omega), if_neg (by omega),
    if_pos (by omega), thousands, hundreds, Nat.mod_eq_of_lt (by omega)]

/-- Fewer digits for fewer years. -/
theorem natText_short {value : Nat} (small : value < 1000) :
    (natText value).length ≤ 3 := by
  have each : ∀ value : Fin 1000, (natText value).length ≤ 3 := by
    decide +kernel
  exact each ⟨value, small⟩

theorem readFixed_digit (isDigit : Digit c d) (count value : Nat) (rest : Text) :
    readFixed (count + 1) value (c :: rest) =
      readFixed count (value * 10 + d) rest := by
  rw [readFixed, isDigit]
  rfl

theorem readFixed_two (tens : Digit c d) (ones : Digit c' d') (rest : Text) :
    readFixed 2 0 (c :: c' :: rest) = some (d * 10 + d', rest) := by
  rw [readFixed_digit tens, readFixed_digit ones, Nat.zero_mul, Nat.zero_add]
  rfl

/-- A character that is no digit, or the end, comes too early. -/
theorem readFixed_stops {s : Text} {count index : Nat} (early : index < count)
    (stops : ∀ c, s[index]? = some c → asciiDigit c = none) (value : Nat) :
    readFixed count value s = none := by
  induction count generalizing s index value with
  | zero => cases early
  | succ count induction =>
      cases s with
      | nil => rfl
      | cons c rest =>
          rw [readFixed]
          cases index with
          | zero => rw [stops c rfl, Option.bind_none]
          | succ index =>
              have later := fun value => @induction rest index
                (Nat.lt_of_succ_lt_succ early) (fun c at_index => stops c at_index)
                value
              simp [later]

theorem readClock_last (tens : Digit c d) (ones : Digit c' d')
    (first colons more : Bool) (left : Nat) :
    readClock (left + 1) first colons more [c, c'] =
      some ([d * 10 + d'], 0, more) := by
  rw [readClock, readFixed_two tens ones]
  rfl

theorem readClock_colon (tens : Digit c d) (ones : Digit c' d')
    (first more : Bool) (left : Nat) (next : CodePoint) (rest : Text) :
    readClock (left + 1) first true more (c :: c' :: 0x3A :: next :: rest) =
      (readClock left false true more (next :: rest)).map fun read =>
        ((d * 10 + d') :: read.1, read.2) := by
  rw [readClock, readFixed_two tens ones]
  cases first <;> simp [Option.map_eq_bind]

/-- `+00:00` -/
def zeroZone : Text := [0x2B, 0x30, 0x30, 0x3A, 0x30, 0x30]

theorem zeroZone_plain : ∀ c ∈ zeroZone, isSurrogate c = false := by
  unfold zeroZone
  simp only [List.forall_mem_cons]
  exact ⟨rfl, rfl, rfl, rfl, rfl, rfl, List.forall_mem_nil _⟩

theorem readTime_zero {h₁ h₂ m₁ m₂ s₁ s₂ : CodePoint} {a b c d e f : Nat}
    (hourTens : Digit h₁ a) (hourOnes : Digit h₂ b) (minuteTens : Digit m₁ c)
    (minuteOnes : Digit m₂ d) (secondTens : Digit s₁ e)
    (secondOnes : Digit s₂ f) (hour : a * 10 + b < 24)
    (minute : c * 10 + d < 60) (second : e * 10 + f < 60) :
    readTime ([h₁, h₂, 0x3A, m₁, m₂, 0x3A, s₁, s₂] ++ zeroZone) =
      some (clockMicros [a * 10 + b, c * 10 + d, e * 10 + f] 0, some 0) := by
  have inClock : ∀ {c d}, Digit c d →
      [0x2B, 0x2D, 0x5A].contains c.val = false := by
    intro c d isDigit
    have bounds := isDigit.bounds
    simp only [List.contains_cons, List.contains_nil, Bool.or_false,
      Bool.or_eq_false_iff, beq_eq_false_iff_ne]
    omega
  have colon : [0x2B, 0x2D, 0x5A].contains (0x3A : CodePoint).val = false := by
    decide
  have clock : ([h₁, h₂, 0x3A, m₁, m₂, 0x3A, s₁, s₂] ++ zeroZone).takeWhile
      (fun c => !([0x2B, 0x2D, 0x5A].contains c.val)) =
        [h₁, h₂, 0x3A, m₁, m₂, 0x3A, s₁, s₂] := by
    rw [List.takeWhile_append_of_pos]
    · rfl
    · simp only [List.forall_mem_cons]
      simp only [inClock hourTens, inClock hourOnes, inClock minuteTens,
        inClock minuteOnes, inClock secondTens, inClock secondOnes, colon]
      simp
  unfold readTime
  dsimp only
  rw [clock, List.drop_left, readClock_colon hourTens hourOnes,
    readClock_colon minuteTens minuteOnes, readClock_last secondTens secondOnes]
  have zone : readZone false [0x30, 0x30, 0x3A, 0x30, 0x30] = some 0 := by
    decide
  simp [zeroZone, zone]
  omega

theorem readDate_dashed {y₁ y₂ y₃ y₄ m₁ m₂ d₁ d₂ : CodePoint}
    {a b c d e f g h : Nat} (first : Digit y₁ a) (second : Digit y₂ b)
    (third : Digit y₃ c) (fourth : Digit y₄ d) (monthTens : Digit m₁ e)
    (monthOnes : Digit m₂ f) (dayTens : Digit d₁ g) (dayOnes : Digit d₂ h)
    {year month day : Nat} (isYear : ((a * 10 + b) * 10 + c) * 10 + d = year)
    (isMonth : e * 10 + f = month) (isDay : g * 10 + h = day)
    (positive : 1 ≤ year) (months : 1 ≤ month ∧ month ≤ 12)
    (days : 1 ≤ day ∧ day ≤ daysInMonth year month) :
    readDate [y₁, y₂, y₃, y₄, 0x2D, m₁, m₂, 0x2D, d₁, d₂] =
      some (ordinal year month day) := by
  have noWeek : m₁ ≠ 0x57 := monthTens.ne (by decide)
  unfold readDate
  rw [readFixed_digit first, readFixed_digit second, readFixed_digit third,
    readFixed_digit fourth]
  have legal : 1 ≤ year ∧ 1 ≤ month ∧ month ≤ 12 ∧ 1 ≤ day ∧
      day ≤ daysInMonth year month :=
    ⟨positive, months.1, months.2, days.1, days.2⟩
  have monthRead := readFixed_two monthTens monthOnes [0x2D, d₁, d₂]
  have dayRead := readFixed_two dayTens dayOnes []
  rw [isMonth] at monthRead
  rw [isDay] at dayRead
  rw [Nat.zero_mul, Nat.zero_add, isYear]
  simp [readFixed.eq_1, noWeek, monthRead, dayRead, legal]

theorem sanitize_plain {s : Text} (plain : ∀ c ∈ s, isSurrogate c = false) :
    sanitize s = s := by
  have none : ([7, 8, 10].find? fun index => s[index]?.any isSurrogate) =
      none := by
    rw [List.find?_eq_none]
    intro index _ surrogate
    cases at_index : s[index]? with
    | none => simp [at_index] at surrogate
    | some c =>
        rw [at_index, Option.any_some,
          plain c (List.mem_of_getElem? at_index)] at surrogate
        cases surrogate
  unfold sanitize
  rw [none]

theorem Digit.plain (isDigit : Digit c d) : isSurrogate c = false := by
  have bounds := isDigit.bounds
  simp only [isSurrogate, Bool.and_eq_false_iff, decide_eq_false_iff_not]
  omega

/-- A text with these digits is read as the time that they stand for. -/
theorem fromIsoFormat_stamp {y₁ y₂ y₃ y₄ m₁ m₂ d₁ d₂ : CodePoint} {clock : Text}
    {a b c d e f g h : Nat} (first : Digit y₁ a) (second : Digit y₂ b)
    (third : Digit y₃ c) (fourth : Digit y₄ d) (monthTens : Digit m₁ e)
    (monthOnes : Digit m₂ f) (dayTens : Digit d₁ g) (dayOnes : Digit d₂ h)
    {day year month inMonth micros : Nat} (isDate : IsDate day year month inMonth)
    (isYear : ((a * 10 + b) * 10 + c) * 10 + d = year)
    (isMonth : e * 10 + f = month) (isDay : g * 10 + h = inMonth)
    (plain : ∀ c ∈ clock, isSurrogate c = false) (inCalendar : day < calendarDays)
    (timed : readTime clock = some (micros, some 0)) :
    fromIsoFormat ([y₁, y₂, y₃, y₄, 0x2D, m₁, m₂, 0x2D, d₁, d₂] ++
        0x54 :: clock) =
      some ⟨(day * daySeconds * 10 ^ 6 + micros : Nat), some 0⟩ := by
  have ordinary : ∀ c ∈ [y₁, y₂, y₃, y₄, 0x2D, m₁, m₂, 0x2D, d₁, d₂] ++
      0x54 :: clock, isSurrogate c = false := by
    simp only [List.forall_mem_append, List.forall_mem_cons]
    exact ⟨⟨first.plain, second.plain, third.plain, fourth.plain, rfl,
      monthTens.plain, monthOnes.plain, rfl, dayTens.plain, dayOnes.plain,
      List.forall_mem_nil _⟩, rfl, plain⟩
  have none : ([y₁, y₂, y₃, y₄, 0x2D, m₁, m₂, 0x2D, d₁, d₂] ++
      0x54 :: clock).any isSurrogate = false := by
    rw [List.any_eq_false]
    exact fun c member => by rw [ordinary c member]; decide
  have dated := readDate_dashed first second third fourth monthTens monthOnes
    dayTens dayOnes isYear isMonth isDay isDate.year_mem.1 isDate.month_mem
    isDate.day_mem
  have noWeek : hasAt ([y₁, y₂, y₃, y₄, 0x2D, m₁, m₂, 0x2D, d₁, d₂] ++
      0x54 :: clock) 5 0x57 = false := by
    simp [hasAt, monthTens.ne (show (0x57 : CodePoint).val < 0x30 ∨
      0x39 < (0x57 : CodePoint).val by decide)]
  have separated : separatorIndex ([y₁, y₂, y₃, y₄, 0x2D, m₁, m₂, 0x2D, d₁,
      d₂] ++ 0x54 :: clock) = some 10 := by
    have dash : hasAt ([y₁, y₂, y₃, y₄, 0x2D, m₁, m₂, 0x2D, d₁, d₂] ++
        0x54 :: clock) 4 0x2D = true := rfl
    unfold separatorIndex
    rw [if_neg (by simp), if_pos dash, noWeek]
    rfl
  have last : ordinal year month inMonth ≤ daysBeforeYear (maxYear + 1) := by
    rw [isDate.number]
    exact inCalendar
  unfold fromIsoFormat
  simp only [sanitize_plain ordinary, none, separated]
  have front : ([y₁, y₂, y₃, y₄, 0x2D, m₁, m₂, 0x2D, d₁, d₂] ++
      0x54 :: clock).take 10 = [y₁, y₂, y₃, y₄, 0x2D, m₁, m₂, 0x2D, d₁, d₂] :=
    rfl
  have back : ([y₁, y₂, y₃, y₄, 0x2D, m₁, m₂, 0x2D, d₁, d₂] ++
      0x54 :: clock).drop 10 = 0x54 :: clock := rfl
  rw [if_neg (by simp)]
  simp only [Option.bind_eq_bind, Option.bind_some, front, back, dated, timed]
  rw [if_pos last, isDate.number, Nat.add_sub_cancel]
  rfl

theorem replace_other {s new : Text} {old : CodePoint} (other : ∀ c ∈ s, c ≠ old) :
    replace s old new = s := by
  induction s with
  | nil => rfl
  | cons c rest induction =>
      obtain ⟨here, later⟩ := List.forall_mem_cons.mp other
      have restSame := induction later
      unfold replace at restSame ⊢
      rw [List.flatMap_cons, restSame, if_neg here]
      rfl

/-- The text without its zone. -/
def clockText (utc : Int) : Text :=
  let seconds := utc.toNat / 10 ^ 6
  let (year, month, day) := dateOfDay (seconds / daySeconds)
  let second := seconds % daySeconds
  natText year ++ 0x2D :: pad2 month ++ 0x2D :: pad2 day ++
    0x54 :: pad2 (second / 3600) ++ 0x3A :: pad2 (second / 60 % 60) ++
    0x3A :: pad2 (second % 60)

theorem isoText_eq (utc : Int) : isoText utc = clockText utc ++ [0x5A] := by
  simp [isoText, clockText]

/-- No letter for a zone, and nothing that `sanitize` replaces. -/
abbrev Written (c : CodePoint) : Prop := c ≠ 0x5A ∧ isSurrogate c = false

theorem IsDigits.written {s : Text} (digits : IsDigits s) :
    ∀ c ∈ s, Written c := by
  intro c member
  obtain ⟨digit, isDigit⟩ := Option.isSome_iff_exists.mp (digits c member)
  have isDigit : Digit c digit := isDigit
  exact ⟨isDigit.ne (by decide), isDigit.plain⟩

theorem clockText_written (utc : Int) : ∀ c ∈ clockText utc, Written c := by
  have number : ∀ value, ∀ c ∈ natText value, Written c := fun value =>
    IsDigits.written (isDigits_natText value)
  have pair : ∀ value, ∀ c ∈ pad2 value, Written c := fun value =>
    IsDigits.written (isDigits_leftPad (isDigits_natText value))
  have separator : Written 0x2D ∧ Written 0x54 ∧ Written 0x3A := by decide
  obtain ⟨dash, letter, colon⟩ := separator
  unfold clockText
  simp only [List.forall_mem_append, List.forall_mem_cons]
  exact ⟨⟨⟨⟨⟨number _, dash, pair _⟩, dash, pair _⟩, letter, pair _⟩, colon,
    pair _⟩, colon, pair _⟩

/-- The offset is written for the letter. -/
theorem replace_isoText (utc : Int) :
    replace (isoText utc) 0x5A "+00:00" = clockText utc ++ zeroZone := by
  have same := @replace_other _ "+00:00" 0x5A
    (fun c member => (clockText_written utc c member).1)
  unfold replace at same ⊢
  rw [isoText_eq, List.flatMap_append, same]
  rfl

/-- The first moment of the year 1000. -/
def firstReadable : Int := (daysBeforeYear 1000 * daySeconds * 10 ^ 6 : Nat)

/-- **A written time is read** as the start of the second it was in. -/
theorem fromIsoFormat_isoText {utc : Int} (begun : firstReadable ≤ utc)
    (within : utc < calendarEnd) :
    fromIsoFormat (replace (isoText utc) 0x5A "+00:00") =
      some ⟨utc / 10 ^ 6 * 10 ^ 6, some 0⟩ := by
  have starts : firstReadable = 31525372800000000 := by decide
  have ends : calendarEnd = 315537897600000000 := by decide
  obtain ⟨total, rfl⟩ := Int.eq_ofNat_of_zero_le (show 0 ≤ utc by omega)
  generalize isSeconds : total / 10 ^ 6 = seconds
  have inCalendar : seconds / daySeconds < calendarDays := by
    show seconds / 86400 < 3652059
    omega
  have late : daysBeforeYear 1000 ≤ seconds / daySeconds := by
    show 364877 ≤ seconds / 86400
    omega
  have isDate := dateOfDay_isDate inCalendar
  have fourDigits := (year_le_iff inCalendar (by decide)).mpr late
  rw [replace_isoText]
  unfold clockText
  rw [Int.toNat_natCast, isSeconds]
  dsimp only
  generalize dateOfDay (seconds / daySeconds) = date at isDate fourDigits ⊢
  obtain ⟨year, month, inMonth⟩ := date
  obtain ⟨positive, atMost⟩ := isDate.year_mem
  obtain ⟨_, lastMonth⟩ := isDate.month_mem
  obtain ⟨_, lastDay⟩ := isDate.day_mem
  dsimp only at fourDigits isDate atMost positive lastMonth lastDay ⊢
  have inDay : inMonth ≤ 31 := by
    refine lastDay.trans ?_
    unfold daysInMonth
    split_ifs <;> omega
  have fewYears : year < 10000 := Nat.lt_succ_of_le atMost
  have shorter : seconds % daySeconds < 86400 := Nat.mod_lt _ (by decide)
  obtain ⟨y₁, y₂, y₃, y₄, years, first, second, third, fourth⟩ :=
    natText_four fourDigits fewYears
  obtain ⟨m₁, m₂, months, monthTens, monthOnes⟩ :=
    pad2_digits (show month < 100 by omega)
  obtain ⟨d₁, d₂, days, dayTens, dayOnes⟩ :=
    pad2_digits (show inMonth < 100 by omega)
  obtain ⟨h₁, h₂, hours, hourTens, hourOnes⟩ :=
    pad2_digits (show seconds % daySeconds / 3600 < 100 by omega)
  obtain ⟨n₁, n₂, minutes, minuteTens, minuteOnes⟩ :=
    pad2_digits (show seconds % daySeconds / 60 % 60 < 100 by omega)
  obtain ⟨s₁, s₂, lasts, secondTens, secondOnes⟩ :=
    pad2_digits (show seconds % daySeconds % 60 < 100 by omega)
  have timed := readTime_zero hourTens hourOnes minuteTens minuteOnes secondTens
    secondOnes (by omega) (by omega) (by omega)
  have plain : ∀ c ∈ [h₁, h₂, 0x3A, n₁, n₂, 0x3A, s₁, s₂] ++ zeroZone,
      isSurrogate c = false := by
    simp only [List.forall_mem_append, List.forall_mem_cons]
    exact ⟨⟨hourTens.plain, hourOnes.plain, rfl, minuteTens.plain,
      minuteOnes.plain, rfl, secondTens.plain, secondOnes.plain,
      List.forall_mem_nil _⟩, zeroZone_plain⟩
  have read := fromIsoFormat_stamp first second third fourth monthTens monthOnes
    dayTens dayOnes isDate (by omega) (by omega) (by omega) plain inCalendar timed
  rw [years, months, days, hours, minutes, lasts]
  refine read.trans (congrArg some ?_)
  have inDays := Nat.div_add_mod seconds daySeconds
  have micros : seconds / daySeconds * daySeconds * 10 ^ 6 +
      clockMicros [seconds % daySeconds / 3600 / 10 * 10 +
          seconds % daySeconds / 3600 % 10,
        seconds % daySeconds / 60 % 60 / 10 * 10 +
          seconds % daySeconds / 60 % 60 % 10,
        seconds % daySeconds % 60 / 10 * 10 + seconds % daySeconds % 60 % 10]
        0 = seconds * 10 ^ 6 := by
    unfold clockMicros
    simp only [List.getD_cons_zero, List.getD_cons_succ]
    generalize seconds % daySeconds = second at *
    generalize seconds / daySeconds = day at *
    rw [Nat.mul_comm daySeconds] at inDays
    omega
  rw [micros, ← isSeconds]
  push_cast
  rfl

/-- **A written time before the year 1000 is not read**: its year has too few
digits. -/
theorem fromIsoFormat_isoText_early {utc : Int} (early : utc < firstReadable) :
    fromIsoFormat (replace (isoText utc) 0x5A "+00:00") = none := by
  have starts : firstReadable = 31525372800000000 := by decide
  have plain : ∀ c ∈ clockText utc ++ zeroZone, isSurrogate c = false := by
    rw [List.forall_mem_append]
    exact ⟨fun c member => (clockText_written utc c member).2, zeroZone_plain⟩
  obtain ⟨later, isText⟩ : ∃ later, clockText utc ++ zeroZone =
      natText (dateOfDay (utc.toNat / 10 ^ 6 / daySeconds)).1 ++ 0x2D :: later := by
    unfold clockText
    simp only [List.append_assoc, List.cons_append]
    exact ⟨_, rfl⟩
  have fewYears : (dateOfDay (utc.toNat / 10 ^ 6 / daySeconds)).1 < 1000 := by
    have before : utc.toNat / 10 ^ 6 / daySeconds < daysBeforeYear 1000 := by
      show utc.toNat / 10 ^ 6 / 86400 < 364877
      omega
    have inCalendar : utc.toNat / 10 ^ 6 / daySeconds < calendarDays :=
      before.trans (by decide)
    by_contra late
    have begun := (year_le_iff inCalendar (by decide)).mp (Nat.not_lt.mp late)
    exact absurd begun (Nat.not_le.mpr before)
  have short := natText_short fewYears
  have noDate : ∀ index, readDate ((clockText utc ++ zeroZone).take index) =
      none := by
    intro index
    have stops := @readFixed_stops ((clockText utc ++ zeroZone).take index) 4
      (natText (dateOfDay (utc.toNat / 10 ^ 6 / daySeconds)).1).length (by omega)
      (by
        intro c at_index
        rw [List.getElem?_take] at at_index
        split_ifs at at_index
        rw [isText, List.getElem?_append_right le_rfl, Nat.sub_self] at at_index
        cases at_index
        rfl) 0
    unfold readDate
    rw [stops]
    rfl
  rw [replace_isoText]
  unfold fromIsoFormat
  rw [sanitize_plain plain]
  simp only [noDate]
  cases separatorIndex (clockText utc ++ zeroZone) <;> simp

end Python.DateTime
