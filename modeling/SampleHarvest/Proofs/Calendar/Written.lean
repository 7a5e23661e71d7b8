import SampleHarvest.Proofs.Calendar.Days
import SampleHarvest.Proofs.Calendar.Reading

/-!
# Dates are read and shown as they are written

A plain date is a year, a month and a day with hyphens between them. A year has a sign or at most
four digits. There is no colon in a date, so none is a timestamp, and each is read as its midnight.

An export shows a date with slashes, the month first. A year has four digits at least and no spare
zeros, and a sign outside the years 0 to 9999. A year that is shown so can be read again.
-/

namespace SampleHarvest

open Text PublicationTime

namespace Date

inductive IsYear : Int → Text → Prop
  | plain {width n : Nat} {run : Text} (hrun : IsNumeral width n run) (hpos : 0 < width)
      (hwidth : width ≤ 4) : IsYear n run
  | later {width n : Nat} {run : Text} (hrun : IsNumeral width n run) (hpos : 0 < width) :
      IsYear n ('+' :: run)
  /-- A year before year zero has a sign. -/
  | earlier {width n : Nat} {run : Text} (hrun : IsNumeral width n run) (hpos : 0 < width) :
      IsYear (-n) ('-' :: run)

/-- How the number of a month or a day is written. -/
def IsShort (n : Nat) (t : Text) : Prop := ∃ width, 1 ≤ width ∧ width ≤ 2 ∧ IsNumeral width n t

inductive IsWritten (date : Date) : Text → Prop
  | parts {year month day : Text} (hyear : IsYear date.year year)
      (hmonth : IsShort date.month month) (hday : IsShort date.day day) :
      IsWritten date (year ++ '-' :: (month ++ '-' :: day))

/-- How a year is shown: with four digits at least, without spare zeros, and with a sign outside
the years 0 to 9999. -/
def IsYearShown (year : Int) (t : Text) : Prop :=
  ∃ run, IsNumeral run.length year.natAbs run ∧ 4 ≤ run.length ∧
    (4 < run.length → run.head? ≠ some '0') ∧
    t = if year < 0 then '-' :: run else if 9999 < year then '+' :: run else run

def IsShown (date : Date) (t : Text) : Prop :=
  ∃ month day year, IsNumeral 2 date.month month ∧ IsNumeral 2 date.day day ∧
    IsYearShown date.year year ∧ t = month ++ '/' :: (day ++ '/' :: year)

variable {date : Date} {t run rest : Text} {width n : Nat}

/-! ### Reading a date -/

theorem isBlank_eq_false_of_isDigit {c : Char} (h : c.isDigit) : isBlank c = false := by
  obtain ⟨hleast, hmost⟩ := Char.isDigit_iff_toNat.mp h
  simp only [Char.reduceToNat] at hleast hmost
  simp only [isBlank, Bool.or_eq_false_iff, Bool.and_eq_false_imp, decide_eq_true_eq,
    decide_eq_false_iff_not, beq_eq_false_iff_ne]
  omega

theorem trimStart_numeral (h : IsNumeral width n run) (hpos : 0 < width) (rest : Text) :
    trimStart (run ++ rest) = run ++ rest := by
  obtain ⟨c, run, rfl⟩ := List.exists_cons_of_ne_nil (h.ne_nil hpos)
  have hc := isBlank_eq_false_of_isDigit (h.digits c List.mem_cons_self)
  exact List.dropWhile_cons_of_neg (Bool.eq_false_iff.mp hc)

theorem head?_hyphen (t : Text) : ∀ c ∈ ('-' :: t).head?, c.isDigit = false := by
  rintro c hc
  obtain rfl := Option.some.inj hc
  rfl

theorem IsShort.digits_append (h : IsShort n run) (hrest : ∀ c ∈ rest.head?, c.isDigit = false) :
    digits 1 2 (trimStart (run ++ rest)) = some (n, rest) := by
  obtain ⟨width, hleast, hmost, hrun⟩ := h
  rw [trimStart_numeral hrun hleast]
  exact PublicationTime.digits_append hrun hleast hmost (Or.inr hrest)

theorem digits_after_sign (hrun : IsNumeral width n run) (hpos : 0 < width)
    (hrest : ∀ c ∈ rest.head?, c.isDigit = false) :
    digits 1 (run ++ rest).length (run ++ rest) = some (n, rest) := by
  have hmost : width ≤ (run ++ rest).length := by
    rw [← hrun.length, List.length_append]
    exact Nat.le_add_right _ _
  exact PublicationTime.digits_append hrun hpos hmost (Or.inr hrest)

theorem IsYear.signedYear_append {year : Int} {front : Text} (h : IsYear year front)
    (hrest : ∀ c ∈ rest.head?, c.isDigit = false) :
    signedYear (front ++ rest) = some (year, rest) := by
  cases h with
  | @plain width n run hrun hpos hwidth =>
      have hdigits := PublicationTime.digits_append hrun hpos hwidth (Or.inr hrest)
      obtain ⟨c, run, rfl⟩ := List.exists_cons_of_ne_nil (hrun.ne_nil hpos)
      have hc : c.isDigit := hrun.digits c List.mem_cons_self
      rw [signedYear, trimStart_numeral hrun hpos, List.cons_append]
      -- The first digit is no sign.
      split
      · next heq =>
          obtain ⟨rfl, -⟩ := List.cons.inj heq
          exact absurd hc (by decide)
      · next heq =>
          obtain ⟨rfl, -⟩ := List.cons.inj heq
          exact absurd hc (by decide)
      · rw [← List.cons_append, hdigits]
        rfl
  | @later width n run hrun hpos =>
      have hread : signedYear ('+' :: (run ++ rest)) =
          (digits 1 (run ++ rest).length (run ++ rest)).map fun read => ((read.1 : Int), read.2) :=
        rfl
      rw [List.cons_append, hread, digits_after_sign hrun hpos hrest]
      rfl
  | @earlier width n run hrun hpos =>
      have hread : signedYear ('-' :: (run ++ rest)) =
          (digits 1 (run ++ rest).length (run ++ rest)).map fun read => (-(read.1 : Int), read.2) :=
        rfl
      rw [List.cons_append, hread, digits_after_sign hrun hpos hrest]
      rfl

theorem IsWritten.parseDate? (h : date.IsWritten t) (hvalid : date.isValid) :
    parseDate? t = some ⟨date.dayNumber * 86400, 0⟩ := by
  cases h with
  | @parts year month day hyear hmonth hday =>
      have hend : ∀ c ∈ ([] : Text).head?, c.isDigit = false := nofun
      have hdigits := hday.digits_append hend
      rw [List.append_nil] at hdigits
      unfold PublicationTime.parseDate?
      refine Option.bind_eq_some_iff.mpr ⟨_, hyear.signedYear_append (head?_hyphen _), ?_⟩
      refine bind_character_iff.mpr ⟨_, rfl, ?_⟩
      refine Option.bind_eq_some_iff.mpr ⟨_, hmonth.digits_append (head?_hyphen _), ?_⟩
      refine bind_character_iff.mpr ⟨_, rfl, ?_⟩
      refine Option.bind_eq_some_iff.mpr ⟨_, hdigits, ?_⟩
      exact bind_guard_iff.mpr ⟨⟨rfl, hvalid⟩, rfl⟩

def IsDigitOrSign (c : Char) : Prop := c.isDigit ∨ c = '+' ∨ c = '-'

theorem IsYear.forall_mem {year : Int} (h : IsYear year t) : ∀ c ∈ t, IsDigitOrSign c := by
  cases h with
  | plain hrun => exact fun c hc => Or.inl (hrun.digits c hc)
  | later hrun =>
      exact List.forall_mem_cons.mpr ⟨.inr (.inl rfl), fun c hc => .inl (hrun.digits c hc)⟩
  | earlier hrun =>
      exact List.forall_mem_cons.mpr ⟨.inr (.inr rfl), fun c hc => .inl (hrun.digits c hc)⟩

theorem IsWritten.forall_mem (h : date.IsWritten t) : ∀ c ∈ t, IsDigitOrSign c := by
  have hshort : ∀ {n run}, IsShort n run → ∀ c ∈ run, IsDigitOrSign c := by
    rintro n run ⟨_, -, -, hrun⟩ c hc
    exact Or.inl (hrun.digits c hc)
  cases h with
  | parts hyear hmonth hday =>
      simp only [List.forall_mem_append, List.forall_mem_cons]
      exact ⟨hyear.forall_mem, .inr (.inr rfl), hshort hmonth, .inr (.inr rfl), hshort hday⟩

theorem IsWritten.trim (h : date.IsWritten t) : t.trim = t := by
  have hblank : ∀ c ∈ t, isBlank c = false := by
    intro c hc
    rcases h.forall_mem c hc with hdigit | rfl | rfl
    · exact isBlank_eq_false_of_isDigit hdigit
    · rfl
    · rfl
  exact trim_eq_self (fun c hc => hblank c (List.mem_of_head? hc))
    fun c hc => hblank c (List.mem_of_getLast? hc)

theorem IsWritten.parseTimestamp? (h : date.IsWritten t) : parseTimestamp? t = none := by
  -- A timestamp has a colon, and a date has none.
  refine Option.eq_none_iff_forall_ne_some.mpr fun ⟨seconds, nanos⟩ hsome => ?_
  obtain ⟨stamp, hwritten, -, -⟩ := parseTimestamp?_iff.mp ⟨nanos, hsome⟩
  have hcolon : ':' ∈ t := by
    cases hwritten
    simp
  exact absurd (h.forall_mem _ hcolon) (by unfold IsDigitOrSign; decide)

/-- A date is read as its midnight, with blanks around it or not. -/
theorem IsWritten.parse? (h : date.IsWritten t.trim) (hvalid : date.isValid) :
    parse? t = some ⟨date.dayNumber * 86400, 0⟩ := by
  rw [PublicationTime.parse?, h.parseTimestamp?, h.parseDate? hvalid]
  rfl

/-! ### Showing a date -/

theorem yearText_isYearShown (year : Int) : IsYearShown year (yearText year) := by
  refine ⟨zeroPadded 4 year.natAbs, isNumeral_zeroPadded 4 year.natAbs, ?_, ?_, rfl⟩
  · rw [length_zeroPadded]
    exact Nat.le_max_left _ _
  · intro hlong hzero
    rw [length_zeroPadded] at hlong
    -- Nothing was filled up, and only zero has a numeral that begins with a zero.
    have hsame : zeroPadded 4 year.natAbs = ofNat year.natAbs := by
      rw [zeroPadded, Nat.sub_eq_zero_of_le (by omega)]
      rfl
    rw [hsame] at hzero
    obtain ⟨run, hrun⟩ := List.head?_eq_some_iff.mp hzero
    rw [eq_zero_of_ofNat hrun] at hlong
    exact absurd hlong (by decide)

theorem isNumeral_zeroPadded_of_lt (hpos : 0 < width) (h : n < 10 ^ width) :
    IsNumeral width n (zeroPadded width n) := by
  have hpadded := isNumeral_zeroPadded width n
  rwa [length_zeroPadded_of_lt hpos h] at hpadded

theorem daysInMonth_le (year : Int) (month : Nat) : daysInMonth year month ≤ 31 := by
  unfold daysInMonth
  split_ifs <;> decide

theorem IsInCalendar.isNumeral_two (h : date.IsInCalendar) :
    IsNumeral 2 date.month (zeroPadded 2 date.month) ∧
      IsNumeral 2 date.day (zeroPadded 2 date.day) := by
  have hmonth : date.month < 10 ^ 2 := Nat.lt_of_le_of_lt h.month_le (by decide)
  have hday : date.day < 10 ^ 2 :=
    Nat.lt_of_le_of_lt (h.day_le.trans (daysInMonth_le _ _)) (by decide)
  exact ⟨isNumeral_zeroPadded_of_lt (by decide) hmonth,
    isNumeral_zeroPadded_of_lt (by decide) hday⟩

theorem IsInCalendar.slashText_isShown (h : date.IsInCalendar) : date.IsShown date.slashText := by
  obtain ⟨hmonth, hday⟩ := h.isNumeral_two
  refine ⟨_, _, _, hmonth, hday, yearText_isYearShown date.year, ?_⟩
  simp [slashText]

theorem yearText_isYear (year : Int) : IsYear year (yearText year) := by
  have hpadded := isNumeral_zeroPadded 4 year.natAbs
  have hpos : 0 < (zeroPadded 4 year.natAbs).length := by
    rw [length_zeroPadded]
    exact Nat.lt_of_lt_of_le (by decide) (Nat.le_max_left _ _)
  rw [yearText]
  split_ifs with hnegative hlater
  · have hyear : IsYear (-(year.natAbs : Int)) _ := .earlier hpadded hpos
    rwa [show -(year.natAbs : Int) = year by omega] at hyear
  · have hyear : IsYear year.natAbs _ := .later hpadded hpos
    rwa [show (year.natAbs : Int) = year by omega] at hyear
  · have hfew : year.natAbs < 10 ^ 4 := by omega
    have hyear : IsYear year.natAbs _ :=
      .plain hpadded hpos (Nat.le_of_eq (length_zeroPadded_of_lt (by decide) hfew))
    rwa [show (year.natAbs : Int) = year by omega] at hyear

theorem IsInCalendar.isoText_isWritten (h : date.IsInCalendar) : date.IsWritten date.isoText := by
  obtain ⟨hmonth, hday⟩ := h.isNumeral_two
  have hparts := IsWritten.parts (yearText_isYear date.year) ⟨2, by decide, by decide, hmonth⟩
    ⟨2, by decide, by decide, hday⟩
  simpa [isoText] using hparts

end Date

end SampleHarvest
