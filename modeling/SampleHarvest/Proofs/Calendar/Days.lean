import Mathlib.Logic.Function.Iterate
import Mathlib.Order.Defs.LinearOrder
import Mathlib.Tactic.IntervalCases
import SampleHarvest.Calendar.Date

/-!
# Counting days

The calendar goes from one date to the next: to the next day of the month, else to the next month,
else to the next year. The number of a date counts these steps from the first day of 1970, forwards
or back. So the numbers grow with the dates, and each number has its date.
-/

namespace SampleHarvest

namespace Date

/-- The calendar has this date, whether its year can be told or not. -/
structure IsInCalendar (date : Date) : Prop where
  month_pos : 1 ≤ date.month
  month_le : date.month ≤ 12
  day_pos : 1 ≤ date.day
  day_le : date.day ≤ daysInMonth date.year date.month

def next (date : Date) : Date :=
  if date.day < daysInMonth date.year date.month then ⟨date.year, date.month, date.day + 1⟩
  else if date.month < 12 then ⟨date.year, date.month + 1, 1⟩
  else ⟨date.year + 1, 1, 1⟩

/-- The first day of 1970. -/
def epoch : Date := ⟨1970, 1, 1⟩

/-- So many steps lead from the first day of 1970 to a date, or back to that day if the number is
negative. -/
def IsDayCount (date : Date) (days : Int) : Prop :=
  next^[days.toNat] epoch = next^[(-days).toNat] date

/-- Year, month and day decide in this order which date comes first. -/
def IsBefore (a b : Date) : Prop :=
  a.year < b.year ∨ a.year = b.year ∧ (a.month < b.month ∨ a.month = b.month ∧ a.day < b.day)

theorem isInCalendar_of_isValid {date : Date} (h : date.isValid) : date.IsInCalendar := by
  simp only [isValid, Bool.and_eq_true, decide_eq_true_eq] at h
  obtain ⟨⟨⟨⟨-, hmonth⟩, hmonth'⟩, hday⟩, hday'⟩ := h
  exact ⟨hmonth, hmonth', hday, hday'⟩

theorem isLeapYear_iff (year : Int) :
    isLeapYear year ↔ year % 4 = 0 ∧ (year % 100 ≠ 0 ∨ year % 400 = 0) := by
  simp [isLeapYear]

/-! ### Months and years -/

/-- The days from 1 March of the year zero to 1 March of a year. -/
def daysToMarch (year : Int) : Int := 365 * year + year / 4 - year / 100 + year / 400

theorem daysToMarch_succ_le (year : Int) : daysToMarch (year + 1) ≤ daysToMarch year + 366 := by
  simp only [daysToMarch]
  omega

theorem dayNumber_eq (year : Int) (month day : Nat) :
    dayNumber ⟨year, month, day⟩ =
      daysToMarch (if month ≤ 2 then year - 1 else year) +
        (153 * (if month ≤ 2 then (month : Int) + 9 else month - 3) + 2) / 5 + day - 719469 := by
  simp only [dayNumber, daysToMarch]
  omega

theorem dayNumber_day (year : Int) (month day : Nat) :
    dayNumber ⟨year, month, day⟩ = dayNumber ⟨year, month, 1⟩ + day - 1 := by
  simp only [dayNumber_eq]
  omega

/-- A leap day is the day that a year from March to March has more than 365. -/
theorem daysInMonth_february (year : Int) :
    (daysInMonth year 2 : Int) = daysToMarch year - daysToMarch (year - 1) - 337 := by
  have hleap := isLeapYear_iff year
  simp only [daysInMonth, reduceIte, daysToMarch]
  by_cases h : isLeapYear year
  · rw [if_pos h]
    have := hleap.mp h
    omega
  · rw [if_neg h]
    have := mt hleap.mpr h
    omega

theorem dayNumber_succ_month (year : Int) {month : Nat} (hpos : 1 ≤ month) (hle : month < 12) :
    dayNumber ⟨year, month + 1, 1⟩ = dayNumber ⟨year, month, 1⟩ + daysInMonth year month := by
  by_cases hfebruary : month = 2
  · subst hfebruary
    rw [daysInMonth_february, dayNumber_eq, dayNumber_eq]
    simp only [Nat.reduceAdd, Nat.reduceLeDiff, reduceIte]
    omega
  · -- The other months have the lengths that multiples of 153/5 leave between them.
    rw [daysInMonth, if_neg hfebruary, dayNumber_eq, dayNumber_eq]
    interval_cases month
    case «2» => exact absurd rfl hfebruary
    all_goals
      simp only [reduceIte, Nat.reduceAdd, Nat.reduceLeDiff, Nat.reduceEqDiff, or_self, or_false,
        or_true]
      omega

theorem dayNumber_succ_year (year : Int) :
    dayNumber ⟨year + 1, 1, 1⟩ = dayNumber ⟨year, 12, 1⟩ + daysInMonth year 12 := by
  have hdecember : daysInMonth year 12 = 31 := rfl
  rw [hdecember, dayNumber_eq, dayNumber_eq, if_pos (by decide), if_pos (by decide),
    if_neg (by decide), if_neg (by decide), Int.add_sub_cancel]
  omega

theorem IsInCalendar.dayNumber_next {date : Date} (h : date.IsInCalendar) :
    (next date).dayNumber = date.dayNumber + 1 := by
  obtain ⟨year, month, day⟩ := date
  obtain ⟨hpos, hle, hday, hday'⟩ := h
  dsimp only at hpos hle hday hday'
  rw [next]
  dsimp only
  split_ifs with hdays hmonth
  · rw [dayNumber_day, dayNumber_day year month day]
    omega
  · rw [dayNumber_succ_month year hpos hmonth, dayNumber_day year month day]
    omega
  · obtain rfl : month = 12 := by omega
    rw [dayNumber_succ_year, dayNumber_day year 12 day]
    omega

theorem daysInMonth_pos (year : Int) (month : Nat) : 1 ≤ daysInMonth year month := by
  unfold daysInMonth
  split_ifs <;> decide

theorem IsInCalendar.next {date : Date} (h : date.IsInCalendar) : date.next.IsInCalendar := by
  rw [Date.next]
  split_ifs with hdays hmonth
  · exact ⟨h.month_pos, h.month_le, Nat.le_add_left 1 _, hdays⟩
  · exact ⟨Nat.le_add_left 1 _, hmonth, Nat.le_refl 1, daysInMonth_pos _ _⟩
  · exact ⟨Nat.le_refl 1, Nat.le_add_left 1 11, Nat.le_refl 1, daysInMonth_pos _ _⟩

/-! ### The order of dates -/

theorem dayNumber_le_month (year : Int) {month other : Nat} (hpos : 1 ≤ month)
    (hlt : month < other) (hle : other ≤ 12) :
    dayNumber ⟨year, month, 1⟩ + daysInMonth year month ≤ dayNumber ⟨year, other, 1⟩ := by
  induction other, hlt using Nat.le_induction with
  | base => rw [dayNumber_succ_month year hpos hle]
  | succ other hother ih =>
      have := ih (by omega)
      rw [dayNumber_succ_month year (by omega) hle]
      omega

theorem dayNumber_le_year {year other : Int} (hle : year ≤ other) :
    dayNumber ⟨year, 1, 1⟩ ≤ dayNumber ⟨other, 1, 1⟩ := by
  rw [dayNumber_eq, dayNumber_eq]
  simp only [Nat.reduceLeDiff, reduceIte, daysToMarch]
  omega

theorem IsInCalendar.dayNumber_range {date : Date} (h : date.IsInCalendar) :
    dayNumber ⟨date.year, date.month, 1⟩ ≤ date.dayNumber ∧
      date.dayNumber < dayNumber ⟨date.year, date.month, 1⟩ + daysInMonth date.year date.month := by
  have hnumber := dayNumber_day date.year date.month date.day
  have := h.day_pos
  have := h.day_le
  change date.dayNumber = _ at hnumber
  omega

theorem IsInCalendar.dayNumber_year {date : Date} (h : date.IsInCalendar) :
    dayNumber ⟨date.year, 1, 1⟩ ≤ date.dayNumber ∧
      date.dayNumber < dayNumber ⟨date.year + 1, 1, 1⟩ := by
  obtain ⟨hfirst, hlast⟩ := h.dayNumber_range
  rw [dayNumber_succ_year]
  constructor
  · rcases Nat.eq_or_lt_of_le h.month_pos with hmonth | hmonth
    · rwa [← hmonth] at hfirst
    · have := dayNumber_le_month date.year (Nat.le_refl 1) hmonth h.month_le
      omega
  · rcases Nat.eq_or_lt_of_le h.month_le with hmonth | hmonth
    · rwa [hmonth] at hlast
    · have := dayNumber_le_month date.year h.month_pos hmonth (Nat.le_refl 12)
      omega

theorem IsBefore.dayNumber_lt {a b : Date} (h : a.IsBefore b) (ha : a.IsInCalendar)
    (hb : b.IsInCalendar) : a.dayNumber < b.dayNumber := by
  obtain ⟨year, month, day⟩ := a
  obtain ⟨year', month', day'⟩ := b
  obtain hyear | ⟨rfl, hmonth | ⟨rfl, hday⟩⟩ := h
  · have hlast := ha.dayNumber_year.2
    have hfirst := hb.dayNumber_year.1
    have := dayNumber_le_year (Int.add_one_le_iff.mpr hyear)
    omega
  · have hlast := ha.dayNumber_range.2
    have hfirst := hb.dayNumber_range.1
    have hmonths := dayNumber_le_month year ha.month_pos hmonth hb.month_le
    dsimp only at hlast hfirst hmonths ⊢
    omega
  · rw [dayNumber_day year month day, dayNumber_day year month day']
    dsimp only at hday
    omega

theorem isBefore_trichotomy (a b : Date) : a.IsBefore b ∨ a = b ∨ b.IsBefore a := by
  obtain ⟨year, month, day⟩ := a
  obtain ⟨year', month', day'⟩ := b
  simp only [IsBefore, Date.mk.injEq]
  omega

theorem IsInCalendar.dayNumber_lt_iff {a b : Date} (ha : a.IsInCalendar) (hb : b.IsInCalendar) :
    a.dayNumber < b.dayNumber ↔ a.IsBefore b := by
  refine ⟨fun hlt => ?_, fun h => h.dayNumber_lt ha hb⟩
  rcases isBefore_trichotomy a b with h | rfl | h
  · exact h
  · exact absurd hlt (Int.lt_irrefl _)
  · exact absurd (h.dayNumber_lt hb ha) (Int.lt_asymm hlt)

theorem IsInCalendar.eq_of_dayNumber {a b : Date} (ha : a.IsInCalendar) (hb : b.IsInCalendar)
    (h : a.dayNumber = b.dayNumber) : a = b := by
  rcases isBefore_trichotomy a b with hbefore | heq | hbefore
  · exact absurd (hbefore.dayNumber_lt ha hb) (h ▸ Int.lt_irrefl _)
  · exact heq
  · exact absurd (hbefore.dayNumber_lt hb ha) (h ▸ Int.lt_irrefl _)

/-! ### The date of a number -/

/-- A day within four hundred years: the centuries before it, the spans of four years in its century,
the years in its span and the days in its year. -/
structure EraParts (days century span year day : Int) : Prop where
  sum : days = 36524 * century + 1461 * span + 365 * year + day
  century_nonneg : 0 ≤ century
  century_le : century ≤ 3
  span_nonneg : 0 ≤ span
  span_le : span ≤ 24
  year_nonneg : 0 ≤ year
  year_le : year ≤ 3
  day_nonneg : 0 ≤ day
  day_le : day ≤ 365
  leap : day = 365 → year = 3 ∧ (span ≠ 24 ∨ century = 3)

theorem exists_eraParts {days : Int} (hpos : 0 ≤ days) (hlt : days < 146097) :
    ∃ century span year day, EraParts days century span year day := by
  have hcentury : ∃ century rest : Int, days = 36524 * century + rest ∧ 0 ≤ century ∧ century ≤ 3 ∧
      0 ≤ rest ∧ rest ≤ 36524 ∧ (rest = 36524 → century = 3) := by
    -- The last of the four centuries has a day more, with which the division would begin a fifth.
    by_cases hlast : days = 146096
    · exact ⟨3, 36524, by omega⟩
    · exact ⟨days / 36524, days % 36524, by omega⟩
  obtain ⟨century, rest, rfl, hcentury⟩ := hcentury
  -- The last span of a century has its leap day only in the last century.
  have hspan : ∃ span rest' : Int, rest = 1461 * span + rest' ∧ 0 ≤ span ∧ span ≤ 24 ∧ 0 ≤ rest' ∧
      rest' ≤ 1460 ∧ (span = 24 → rest' = 1460 → century = 3) :=
    ⟨rest / 1461, rest % 1461, by omega⟩
  obtain ⟨span, rest', rfl, hspan⟩ := hspan
  by_cases hleap : rest' = 1460
  · exact ⟨century, span, 3, 365, by constructor <;> omega⟩
  · exact ⟨century, span, rest' / 365, rest' % 365, by constructor <;> omega⟩

namespace EraParts

variable {days century span year day : Int}

theorem yearOfEra_eq (h : EraParts days century span year day) :
    (days - days / 1460 + days / 36524 - days / 146096) / 365 = 100 * century + 4 * span + year := by
  obtain ⟨hsum, hcentury, hcentury', hspan, hspan', hyear, hyear', hday, hday', hleap⟩ := h
  -- The last day of all is in no century that the division counts.
  have hcenturies : days / 36524 - days / 146096 = century := by
    by_cases hlast : days = 146096
    · omega
    · have : days / 36524 = century := by omega
      omega
  -- The leap days before are taken off, and with the last day of a leap year one more.
  have hleaps : days / 1460 = 25 * century + span ∧ day ≠ 365 ∨
      days / 1460 = 25 * century + span + 1 ∧ day ≠ 0 := by
    by_cases hbefore : days < 1460 * (25 * century + span + 1)
    · exact Or.inl (by omega)
    · exact Or.inr (by omega)
  omega

theorem day_range (h : EraParts days century span year day) :
    days = daysToMarch (100 * century + 4 * span + year) + day ∧
      days < daysToMarch (100 * century + 4 * span + year + 1) := by
  obtain ⟨hsum, hcentury, hcentury', hspan, hspan', hyear, hyear', hday, hday', hleap⟩ := h
  have hfour : (100 * century + 4 * span + year) / 4 = 25 * century + span := by omega
  have hhundred : (100 * century + 4 * span + year) / 100 = century := by omega
  have hall : (100 * century + 4 * span + year) / 400 = 0 := by omega
  simp only [daysToMarch, hfour, hhundred, hall]
  constructor <;> omega

end EraParts

theorem exists_yearOfEra {days : Int} (hpos : 0 ≤ days) (hlt : days < 146097) :
    ∃ year day : Int, (days - days / 1460 + days / 36524 - days / 146096) / 365 = year ∧
      0 ≤ year ∧ year < 400 ∧ 0 ≤ day ∧ days = daysToMarch year + day ∧
      days < daysToMarch (year + 1) := by
  obtain ⟨century, span, year, day, h⟩ := exists_eraParts hpos hlt
  refine ⟨100 * century + 4 * span + year, day, h.yearOfEra_eq, ?_, ?_, h.day_nonneg, h.day_range⟩
  · have := h.century_nonneg
    have := h.span_nonneg
    have := h.year_nonneg
    omega
  · have := h.century_le
    have := h.span_le
    have := h.year_le
    omega

/-- Four hundred years have the same number of days, from whatever year on. -/
theorem daysToMarch_add_eras (year era : Int) :
    daysToMarch (year + era * 400) = daysToMarch year + era * 146097 := by
  simp only [daysToMarch]
  omega

/-- A number is a day in a year from March to March, and its date has the month and the day of the
month that this day falls in. -/
theorem exists_ofDayNumber (number : Int) : ∃ year day : Int,
    number = daysToMarch year + day - 719468 ∧ 0 ≤ day ∧
      day < daysToMarch (year + 1) - daysToMarch year ∧
      ofDayNumber number =
        { year := year + (if 10 ≤ (5 * day + 2) / 153 then 1 else 0)
          month := (if (5 * day + 2) / 153 < 10 then (5 * day + 2) / 153 + 3
            else (5 * day + 2) / 153 - 9).toNat
          day := (day - (153 * ((5 * day + 2) / 153) + 2) / 5 + 1).toNat } := by
  obtain ⟨era, days, hera, hdays, hpos, hlt⟩ : ∃ era days : Int, (number + 719468) / 146097 = era ∧
      number + 719468 - era * 146097 = days ∧ 0 ≤ days ∧ days < 146097 :=
    ⟨_, _, rfl, rfl, by omega⟩
  obtain ⟨year, day, hyear, hnonneg, hless, hday, hbefore, hafter⟩ := exists_yearOfEra hpos hlt
  have hdayOfYear : days - (365 * year + year / 4 - year / 100) = day := by
    have hwithin : year / 400 = 0 := Int.ediv_eq_zero_of_lt hnonneg hless
    rw [daysToMarch, hwithin] at hbefore
    omega
  have hnext : year + era * 400 + 1 = year + 1 + era * 400 := Int.add_right_comm _ _ _
  refine ⟨year + era * 400, day, ?_, hday, ?_, ?_⟩
  · rw [daysToMarch_add_eras]
    omega
  · rw [hnext, daysToMarch_add_eras, daysToMarch_add_eras]
    omega
  · simp only [ofDayNumber, hera, hdays, hyear, hdayOfYear]

theorem ofDayNumber_isInCalendar (number : Int) : (ofDayNumber number).IsInCalendar := by
  obtain ⟨year, day, -, hday, hday', hdate⟩ := exists_ofDayNumber number
  have hlength := daysToMarch_succ_le year
  have hfebruary := daysInMonth_february (year + 1)
  rw [Int.add_sub_cancel] at hfebruary
  rw [hdate]
  obtain ⟨month, hmonth⟩ := Int.eq_ofNat_of_zero_le (show 0 ≤ (5 * day + 2) / 153 by omega)
  have hmonth' : month < 12 := by omega
  rw [hmonth]
  refine ⟨?_, ?_, ?_, ?_⟩ <;> dsimp only
  · omega
  · omega
  · omega
  · -- The last month is February, and it is as long as the days of its year allow.
    by_cases hlast : month = 11
    · subst hlast
      show (day - 337 + 1).toNat ≤ daysInMonth (year + 1) 2
      omega
    · rw [daysInMonth, if_neg (by omega)]
      split_ifs <;> omega

theorem dayNumber_ofDayNumber (number : Int) : (ofDayNumber number).dayNumber = number := by
  obtain ⟨year, day, hnumber, hday, hday', hdate⟩ := exists_ofDayNumber number
  have hlength := daysToMarch_succ_le year
  rw [hdate, dayNumber_eq, hnumber]
  -- January and February belong to the year from March on that began before.
  by_cases hlate : 10 ≤ (5 * day + 2) / 153
  · rw [if_pos hlate, if_neg (Int.not_lt.mpr hlate), if_pos (by omega), if_pos (by omega),
      Int.add_sub_cancel]
    omega
  · rw [if_neg hlate, if_pos (Int.not_le.mp hlate), if_neg (by omega), if_neg (by omega),
      Int.add_zero]
    omega

theorem IsInCalendar.ofDayNumber_dayNumber {date : Date} (h : date.IsInCalendar) :
    ofDayNumber date.dayNumber = date :=
  (ofDayNumber_isInCalendar _).eq_of_dayNumber h (dayNumber_ofDayNumber _)

/-! ### Steps from the first day of 1970 -/

theorem next_ofDayNumber (number : Int) : next (ofDayNumber number) = ofDayNumber (number + 1) := by
  have h := ofDayNumber_isInCalendar number
  apply h.next.eq_of_dayNumber (ofDayNumber_isInCalendar _)
  rw [h.dayNumber_next, dayNumber_ofDayNumber, dayNumber_ofDayNumber]

theorem iterate_next_ofDayNumber (steps : Nat) (number : Int) :
    next^[steps] (ofDayNumber number) = ofDayNumber (number + steps) := by
  induction steps generalizing number with
  | zero => rw [Function.iterate_zero, id, Int.natCast_zero, Int.add_zero]
  | succ steps ih =>
      rw [Function.iterate_succ_apply, next_ofDayNumber, ih, Int.add_assoc, Int.add_comm 1,
        Int.natCast_succ]

/-- The number of a date is the one count of days that leads to it. -/
theorem IsInCalendar.isDayCount_iff {date : Date} (h : date.IsInCalendar) {days : Int} :
    date.IsDayCount days ↔ days = date.dayNumber := by
  have hepoch : epoch = ofDayNumber 0 := rfl
  rw [IsDayCount, hepoch, iterate_next_ofDayNumber, ← h.ofDayNumber_dayNumber,
    iterate_next_ofDayNumber, h.ofDayNumber_dayNumber]
  constructor
  · intro hsame
    have hnumbers := congrArg dayNumber hsame
    rw [dayNumber_ofDayNumber, dayNumber_ofDayNumber] at hnumbers
    omega
  · rintro rfl
    congr 1
    omega

end Date

end SampleHarvest
