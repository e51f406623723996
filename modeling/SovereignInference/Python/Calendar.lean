import SovereignInference.Python.Rfc3339

/-!
# The calendar

Days are counted from the first of January of year one.  The date of a day is
the one whose number it is, and years that begin later have later days.
-/

namespace Python.DateTime

open Rfc3339 (daysBeforeMonth_succ daysBeforeMonth_thirteen)

/-- How many numbers below a bound pass, up to the first that fails. -/
theorem takeWhile_range (passes : Nat → Bool) (bound : Nat) :
    ∃ count ≤ bound, ((List.range bound).takeWhile passes).length = count ∧
      (∀ i < count, passes i = true) ∧
      (count < bound → passes count = false) := by
  induction bound with
  | zero => exact ⟨0, le_rfl, rfl, nofun, nofun⟩
  | succ bound induction =>
      obtain ⟨count, atMost, isCount, below, stops⟩ := induction
      rw [List.range_succ, List.takeWhile_append, isCount, List.length_range]
      by_cases whole : count = bound
      · subst whole
        rw [if_pos rfl]
        cases last : passes count with
        | true =>
            refine ⟨count + 1, le_rfl, by simp [last], ?_,
              fun absurdly => absurd absurdly (lt_irrefl _)⟩
            intro i small
            rcases Nat.lt_succ_iff_lt_or_eq.mp small with earlier | rfl
            · exact below i earlier
            · exact last
        | false =>
            exact ⟨count, Nat.le_succ _, by simp [last], below, fun _ => last⟩
      · rw [if_neg whole]
        exact ⟨count, Nat.le_succ_of_le atMost, isCount, below,
          fun _ => stops (by omega)⟩

theorem daysBeforeYear_succ {year : Nat} (positive : 1 ≤ year) :
    daysBeforeYear (year + 1) =
      daysBeforeYear year + if isLeap year then 366 else 365 := by
  obtain ⟨before, rfl⟩ := Nat.exists_eq_add_of_le' positive
  have fours := @Nat.succ_div before 4
  have hundreds := @Nat.succ_div before 100
  have fourHundreds := @Nat.succ_div before 400
  have leap : isLeap (before + 1) = true ↔
      4 ∣ before + 1 ∧ (¬ 100 ∣ before + 1 ∨ 400 ∣ before + 1) := by
    unfold isLeap
    rw [decide_eq_true_iff]
    omega
  have centuries : before / 100 ≤ before / 4 := by omega
  unfold daysBeforeYear
  rw [Nat.add_sub_cancel, Nat.add_sub_cancel, fours, hundreds, fourHundreds]
  simp only [leap]
  split_ifs <;> omega

theorem daysBeforeYear_mono {year later : Nat} (positive : 1 ≤ year)
    (order : year ≤ later) : daysBeforeYear year ≤ daysBeforeYear later := by
  induction later, order using Nat.le_induction with
  | base => exact le_rfl
  | succ later order induction =>
      rw [daysBeforeYear_succ (positive.trans order)]
      exact Nat.le_add_right_of_le induction

/-- The days of the calendar. -/
def calendarDays : Nat := daysBeforeYear (maxYear + 1)

/-- The date of a day. -/
structure IsDate (day year month inMonth : Nat) : Prop where
  year_mem : 1 ≤ year ∧ year ≤ maxYear
  month_mem : 1 ≤ month ∧ month ≤ 12
  day_mem : 1 ≤ inMonth ∧ inMonth ≤ daysInMonth year month
  number : ordinal year month inMonth = day + 1

theorem yearOfDay {day : Nat} (inCalendar : day < calendarDays) :
    ∃ year, (dateOfDay day).1 = year ∧ 1 ≤ year ∧ year ≤ maxYear ∧
      daysBeforeYear year ≤ day ∧ day < daysBeforeYear (year + 1) := by
  obtain ⟨count, atMost, isCount, below, stops⟩ := takeWhile_range
    (fun i => decide (daysBeforeYear (day / 366 + 1 + i + 1) ≤ day)) 30
  refine ⟨day / 366 + 1 + count, congrArg _ isCount, by omega, ?_⟩
  have bounded : day < 3652059 := inCalendar
  have after : day < daysBeforeYear (day / 366 + 1 + count + 1) := by
    rcases Nat.lt_or_eq_of_le atMost with fewer | rfl
    · exact Nat.not_le.mp (of_decide_eq_false (stops fewer))
    · unfold daysBeforeYear
      omega
  have before : daysBeforeYear (day / 366 + 1 + count) ≤ day := by
    cases count with
    | zero =>
        unfold daysBeforeYear
        omega
    | succ count =>
        exact of_decide_eq_true (below count (Nat.lt_succ_self count))
  refine ⟨?_, before, after⟩
  by_contra beyond
  have inYears := daysBeforeYear_mono (by decide : 1 ≤ maxYear + 1)
    (Nat.succ_le_of_lt (Nat.not_le.mp beyond))
  exact absurd (inYears.trans before) (Nat.not_le.mpr inCalendar)

/-- **The date of a day** of the calendar is the one with its number. -/
theorem dateOfDay_isDate {day : Nat} (inCalendar : day < calendarDays) :
    IsDate day (dateOfDay day).1 (dateOfDay day).2.1 (dateOfDay day).2.2 := by
  obtain ⟨year, isYear, positive, atMost, before, after⟩ := yearOfDay inCalendar
  rw [daysBeforeYear_succ positive] at after
  obtain ⟨month, upTo, isMonth, below, stops⟩ := takeWhile_range
    (fun i => decide (daysBeforeMonth year (i + 1) ≤
      day - daysBeforeYear year)) 12
  have months : (dateOfDay day).2.1 = month := by
    rw [← isMonth, ← isYear]
    rfl
  have days : (dateOfDay day).2.2 =
      day - daysBeforeYear year - daysBeforeMonth year month + 1 := by
    rw [← months, ← isYear]
    rfl
  have first : 1 ≤ month := by
    by_contra none
    obtain rfl : month = 0 := by omega
    have fails := of_decide_eq_false (stops (by decide))
    exact fails (Nat.zero_le _)
  have begun : daysBeforeMonth year month ≤ day - daysBeforeYear year := by
    have last := of_decide_eq_true (below (month - 1) (by omega))
    rwa [Nat.sub_add_cancel first] at last
  have ends : day - daysBeforeYear year < daysBeforeMonth year (month + 1) := by
    rcases Nat.lt_or_eq_of_le upTo with fewer | rfl
    · exact Nat.not_le.mp (of_decide_eq_false (stops fewer))
    · rw [daysBeforeMonth_thirteen]
      omega
  rw [daysBeforeMonth_succ year first] at ends
  rw [isYear, months, days]
  refine ⟨⟨positive, atMost⟩, ⟨first, upTo⟩, ⟨by omega, by omega⟩, ?_⟩
  unfold ordinal
  omega

/-- The years from a year on are those of the days from its first on. -/
theorem year_le_iff {day year : Nat} (inCalendar : day < calendarDays)
    (positive : 1 ≤ year) :
    year ≤ (dateOfDay day).1 ↔ daysBeforeYear year ≤ day := by
  obtain ⟨_, rfl, first, _, before, after⟩ := yearOfDay inCalendar
  constructor
  · intro order
    exact (daysBeforeYear_mono positive order).trans before
  · intro begun
    by_contra earlier
    have order := daysBeforeYear_mono (Nat.succ_le_succ (Nat.zero_le _))
      (Nat.succ_le_of_lt (Nat.not_le.mp earlier))
    exact absurd (order.trans begun) (Nat.not_le.mpr after)

end Python.DateTime
