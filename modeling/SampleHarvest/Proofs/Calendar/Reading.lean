import Mathlib.Data.Rat.Floor
import Mathlib.Tactic.SplitIfs
import SampleHarvest.Calendar.PublicationTime
import SampleHarvest.Proofs.Text.Decimal
import SampleHarvest.Proofs.Text.Trim

/-!
# Timestamps are read as they are written

A timestamp is a row of fields: numerals of a fixed width with signs between them, perhaps a
fraction of a second, and an offset. Each reader takes its field from the front of what is left, and
takes it if and only if the field stands there. Only the fraction has no width of its own; it goes
on as long as digits follow, and no offset begins with a digit.

So exactly the written timestamps are accepted whose date is in the calendar and whose time is on
the clock. The second that is kept is the last one that has begun, in universal time.
-/

namespace SampleHarvest

namespace Text

/-- A run of so many digits that stands for a number. -/
structure IsNumeral (width n : Nat) (t : Text) : Prop where
  length : t.length = width
  digits : ∀ c ∈ t, c.isDigit
  value : digitsValue 0 t = n

theorem IsNumeral.ne_nil {width n : Nat} {t : Text} (h : IsNumeral width n t) (hpos : 0 < width) :
    t ≠ [] := by
  rintro rfl
  exact absurd h.length (Nat.ne_of_lt hpos)

theorem digitsValue_zeros (count : Nat) (t : Text) :
    digitsValue 0 (List.replicate count '0' ++ t) = digitsValue 0 t := by
  induction count with
  | zero => rfl
  | succ count ih => exact ih

theorem digitsValue_lt (acc : Nat) {t : Text} (h : ∀ c ∈ t, c.isDigit) :
    digitsValue acc t < (acc + 1) * 10 ^ t.length := by
  induction t generalizing acc with
  | nil => exact Nat.lt_of_lt_of_eq (Nat.lt_succ_self acc) (Nat.mul_one _).symm
  | cons c t ih =>
      obtain ⟨hc, ht⟩ := List.forall_mem_cons.mp h
      have hdigit : digitValue c < 10 := by
        have hcode := (Char.isDigit_iff_toNat.mp hc).2
        rw [digitValue]
        simp only [Char.reduceToNat] at hcode ⊢
        omega
      calc digitsValue (10 * acc + digitValue c) t
          < (10 * acc + digitValue c + 1) * 10 ^ t.length := ih _ ht
        _ ≤ (10 * (acc + 1)) * 10 ^ t.length := Nat.mul_le_mul_right _ (by omega)
        _ = (acc + 1) * 10 ^ (c :: t).length := by
            rw [List.length_cons, Nat.pow_succ, Nat.mul_comm 10, Nat.mul_assoc, Nat.mul_comm 10]

theorem IsNumeral.lt {width n : Nat} {t : Text} (h : IsNumeral width n t) : n < 10 ^ width := by
  obtain ⟨rfl, hdigits, rfl⟩ := h
  have hlt := digitsValue_lt 0 hdigits
  rwa [Nat.zero_add, Nat.one_mul] at hlt

theorem isNumeral_zeroPadded (width n : Nat) :
    IsNumeral (zeroPadded width n).length n (zeroPadded width n) where
  length := rfl
  digits c hc := by
    rcases List.mem_append.mp hc with hc | hc
    · rw [List.eq_of_mem_replicate hc]
      rfl
    · exact isDigit_of_mem_ofNat hc
  value := (digitsValue_zeros _ _).trans Nat.ofDigitChars_ten_toDigits

theorem length_zeroPadded (width n : Nat) :
    (zeroPadded width n).length = max width (ofNat n).length := by
  rw [zeroPadded, List.length_append, List.length_replicate]
  omega

theorem length_zeroPadded_of_lt {width n : Nat} (hpos : 0 < width) (h : n < 10 ^ width) :
    (zeroPadded width n).length = width := by
  rw [length_zeroPadded]
  exact Nat.max_eq_left ((Nat.length_toDigits_le_iff (by decide) hpos).mpr h)

end Text

namespace PublicationTime

open Text

variable {t rest run : Text} {width n : Nat} {c : Char}

theorem character_eq_some_iff {u : Unit} : character c t = some (u, rest) ↔ t = c :: rest := by
  cases t with
  | nil => simp [character]
  | cons d t => simp [character]

theorem takeWhile_digits_append (hrun : ∀ c ∈ run, c.isDigit)
    (hrest : ∀ c ∈ rest.head?, c.isDigit = false) :
    (run ++ rest).takeWhile Char.isDigit = run := by
  have hnone : rest.takeWhile Char.isDigit = [] := by
    cases rest with
    | nil => rfl
    | cons c rest => exact List.takeWhile_cons_of_neg (Bool.eq_false_iff.mp (hrest c rfl))
  rw [List.takeWhile_append_of_pos hrun, hnone, List.append_nil]

/-- Digits are taken as many as there are, but no more than wanted. -/
theorem digits_append {least most : Nat} (h : IsNumeral width n run) (hleast : least ≤ width)
    (hmost : width ≤ most) (hstop : width = most ∨ ∀ c ∈ rest.head?, c.isDigit = false) :
    digits least most (run ++ rest) = some (n, rest) := by
  obtain ⟨rfl, hdigits, rfl⟩ := h
  -- What stops the run is the number of digits wanted, or else what is behind it.
  have hbehind : ∀ c ∈ (rest.take (most - run.length)).head?, c.isDigit = false := by
    intro c hc
    rw [List.head?_take] at hc
    split_ifs at hc with hmore
    · cases hc
    · exact hstop.resolve_left (by omega) c hc
  have hrun : ((run ++ rest).take most).takeWhile Char.isDigit = run := by
    rw [List.take_append, List.take_of_length_le hmost, takeWhile_digits_append hdigits hbehind]
  rw [digits, hrun, if_neg (Nat.not_lt.mpr hleast), List.drop_left]

theorem digits_eq_some_iff :
    digits width width t = some (n, rest) ↔ ∃ run, IsNumeral width n run ∧ t = run ++ rest := by
  constructor
  · intro h
    rw [digits] at h
    split_ifs at h with hshort
    obtain ⟨rfl, rfl⟩ := Prod.mk.inj (Option.some.inj h)
    have htake : ((t.take width).takeWhile Char.isDigit).length = width := by
      refine Nat.le_antisymm ?_ (Nat.not_lt.mp hshort)
      exact (List.takeWhile_prefix _).length_le.trans (List.length_take_le _ _)
    have hprefix : (t.take width).takeWhile Char.isDigit <+: t :=
      (List.takeWhile_prefix _).trans (List.take_prefix _ _)
    refine ⟨_, ⟨htake, List.all_eq_true.mp List.all_takeWhile, rfl⟩, ?_⟩
    exact (List.prefix_iff_eq_append.mp hprefix).symm
  · rintro ⟨run, hrun, rfl⟩
    exact digits_append hrun (Nat.le_refl _) (Nat.le_refl _) (Or.inl rfl)

/-! ### One step after the other -/

section Steps

variable {α : Type} {x : α}

theorem bind_digits_iff {next : Nat × Text → Option α} :
    (digits width width t >>= next) = some x ↔
      ∃ n run rest, IsNumeral width n run ∧ t = run ++ rest ∧ next (n, rest) = some x := by
  simp only [Option.bind_eq_bind, Option.bind_eq_some_iff, Prod.exists, digits_eq_some_iff]
  constructor
  · rintro ⟨n, rest, ⟨run, hrun, ht⟩, hnext⟩
    exact ⟨n, run, rest, hrun, ht, hnext⟩
  · rintro ⟨n, run, rest, hrun, ht, hnext⟩
    exact ⟨n, rest, ⟨run, hrun, ht⟩, hnext⟩

theorem bind_character_iff {next : Unit × Text → Option α} :
    (character c t >>= next) = some x ↔ ∃ rest, t = c :: rest ∧ next ((), rest) = some x := by
  simp only [Option.bind_eq_bind, Option.bind_eq_some_iff, Prod.exists, character_eq_some_iff]
  exact ⟨fun ⟨_, rest, ht, hnext⟩ => ⟨rest, ht, hnext⟩,
    fun ⟨rest, ht, hnext⟩ => ⟨(), rest, ht, hnext⟩⟩

theorem separator_eq_some_iff {u : Unit} :
    (character 'T' t <|> character 't' t <|> character ' ' t) = some (u, rest) ↔
      ∃ separator, (separator = 'T' ∨ separator = 't' ∨ separator = ' ') ∧
        t = separator :: rest := by
  cases t with
  | nil => simp [character]
  | cons d t =>
      simp only [character, List.cons.injEq]
      split_ifs with hcapital hsmall hspace <;> simp [*]

theorem bind_separator_iff {next : Unit × Text → Option α} :
    ((character 'T' t <|> character 't' t <|> character ' ' t) >>= next) = some x ↔
      ∃ separator rest, (separator = 'T' ∨ separator = 't' ∨ separator = ' ') ∧
        t = separator :: rest ∧ next ((), rest) = some x := by
  simp only [Option.bind_eq_bind, Option.bind_eq_some_iff, Prod.exists, separator_eq_some_iff]
  constructor
  · rintro ⟨_, rest, ⟨separator, hseparator, ht⟩, hnext⟩
    exact ⟨separator, rest, hseparator, ht, hnext⟩
  · rintro ⟨separator, rest, hseparator, ht, hnext⟩
    exact ⟨(), rest, ⟨separator, hseparator, ht⟩, hnext⟩

theorem bind_guard_iff {p : Prop} [Decidable p] {next : Unit → Option α} :
    ((guard p : Option Unit) >>= next) = some x ↔ p ∧ next () = some x := by
  by_cases h : p <;> simp [guard, h]

end Steps

/-! ### Offsets and fractions -/

/-- How the offset from universal time is written, in seconds. -/
inductive IsOffset : Text → Int → Prop
  | universal {c : Char} (hc : c = 'Z' ∨ c = 'z') : IsOffset [c] 0
  | ahead {h m : Nat} {hours minutes : Text} (hhours : IsNumeral 2 h hours) (hh : h ≤ 23)
      (hminutes : IsNumeral 2 m minutes) (hm : m ≤ 59) :
      IsOffset ('+' :: hours ++ ':' :: minutes) (3600 * h + 60 * m)
  | behind {c : Char} {h m : Nat} {hours minutes : Text} (hc : isMinus c)
      (hhours : IsNumeral 2 h hours) (hh : h ≤ 23) (hminutes : IsNumeral 2 m minutes)
      (hm : m ≤ 59) : IsOffset (c :: hours ++ ':' :: minutes) (-(3600 * h + 60 * m))

/-- A sign, the hours, a colon and the minutes. -/
theorem offset_cons_iff {shift : Int} (hc : ¬(c = 'Z' ∨ c = 'z')) :
    offset (c :: t) = some (shift, rest) ↔ (c = '+' ∨ isMinus c) ∧
      ∃ h hours m minutes, IsNumeral 2 h hours ∧ IsNumeral 2 m minutes ∧ h ≤ 23 ∧ m ≤ 59 ∧
        t = hours ++ ':' :: (minutes ++ rest) ∧
        shift = if c = '+' then (3600 * h + 60 * m : Int) else -(3600 * h + 60 * m) := by
  have hsize (h m : Nat) : (h * 3600 + m * 60 : Int) = 3600 * h + 60 * m := by omega
  rw [offset, if_neg hc]
  constructor
  · intro hoffset
    obtain ⟨hsign, h₁⟩ := bind_guard_iff.mp hoffset
    obtain ⟨h, hours, t₁, hhours, rfl, h₂⟩ := bind_digits_iff.mp h₁
    obtain ⟨t₂, rfl, h₃⟩ := bind_character_iff.mp h₂
    obtain ⟨m, minutes, t₃, hminutes, rfl, h₄⟩ := bind_digits_iff.mp h₃
    obtain ⟨⟨hh, hm⟩, h₅⟩ := bind_guard_iff.mp h₄
    obtain ⟨rfl, rfl⟩ := Prod.mk.inj (Option.some.inj h₅)
    exact ⟨hsign, h, hours, m, minutes, hhours, hminutes, hh, hm, rfl, by rw [hsize]⟩
  · rintro ⟨hsign, h, hours, m, minutes, hhours, hminutes, hh, hm, rfl, rfl⟩
    refine bind_guard_iff.mpr ⟨hsign, ?_⟩
    refine bind_digits_iff.mpr ⟨h, hours, _, hhours, rfl, ?_⟩
    refine bind_character_iff.mpr ⟨_, rfl, ?_⟩
    refine bind_digits_iff.mpr ⟨m, minutes, _, hminutes, rfl, ?_⟩
    refine bind_guard_iff.mpr ⟨⟨hh, hm⟩, ?_⟩
    rw [← hsize]
    rfl

theorem offset_append {zone : Text} {shift : Int} (h : IsOffset zone shift) :
    offset (zone ++ rest) = some (shift, rest) := by
  cases h with
  | universal hc => exact if_pos hc
  | @ahead h m hours minutes hhours hh hminutes hm =>
      rw [List.append_assoc]
      exact (offset_cons_iff (by decide)).mpr
        ⟨.inl rfl, h, hours, m, minutes, hhours, hminutes, hh, hm, rfl, (if_pos rfl).symm⟩
  | @behind c h m hours minutes hc hhours hh hminutes hm =>
      -- A minus sign is none of the other marks, of which each is a fixed character.
      have hother : ¬(c = 'Z' ∨ c = 'z') := by
        rintro (rfl | rfl) <;> exact absurd hc (by decide)
      have hplus : c ≠ '+' := by
        rintro rfl
        exact absurd hc (by decide)
      rw [List.append_assoc]
      exact (offset_cons_iff hother).mpr
        ⟨.inr hc, h, hours, m, minutes, hhours, hminutes, hh, hm, rfl, (if_neg hplus).symm⟩

theorem exists_of_offset {shift : Int} (h : offset t = some (shift, rest)) :
    ∃ zone, IsOffset zone shift ∧ t = zone ++ rest := by
  cases t with
  | nil => cases h
  | cons c t =>
      by_cases huniversal : c = 'Z' ∨ c = 'z'
      · rw [offset, if_pos huniversal] at h
        obtain ⟨rfl, rfl⟩ := Prod.mk.inj (Option.some.inj h)
        exact ⟨[c], .universal huniversal, rfl⟩
      · obtain ⟨hsign, h, hours, m, minutes, hhours, hminutes, hh, hm, rfl, rfl⟩ :=
          (offset_cons_iff huniversal).mp h
        have hsplit : c :: (hours ++ ':' :: (minutes ++ rest)) =
            (c :: hours ++ ':' :: minutes) ++ rest := by simp
        refine ⟨c :: hours ++ ':' :: minutes, ?_, hsplit⟩
        by_cases hplus : c = '+'
        · rw [if_pos hplus, hplus]
          exact .ahead hhours hh hminutes hm
        · rw [if_neg hplus]
          exact .behind (hsign.resolve_left hplus) hhours hh hminutes hm

/-- How a fraction of a second is written, after which no further digit comes. -/
inductive IsFraction : Text → ℚ → Prop
  | absent : IsFraction [] 0
  | decimals {width n : Nat} {run : Text} (hrun : IsNumeral width n run) (hpos : 0 < width) :
      IsFraction ('.' :: run) (n / 10 ^ width)

theorem IsFraction.range {front : Text} {part : ℚ} (h : IsFraction front part) :
    0 ≤ part ∧ part < 1 := by
  cases h with
  | absent => exact ⟨le_refl 0, zero_lt_one⟩
  | @decimals width n run hrun hpos =>
      have hpower : (0 : ℚ) < 10 ^ width := pow_pos (by decide) width
      have hlt : (n : ℚ) < 10 ^ width := by exact_mod_cast hrun.lt
      exact ⟨div_nonneg (Nat.cast_nonneg n) (le_of_lt hpower), (div_lt_one hpower).mpr hlt⟩

theorem fraction_append {front : Text} {part : ℚ} (h : IsFraction front part)
    (hrest : ∀ c ∈ rest.head?, c.isDigit = false ∧ c ≠ '.') :
    ∃ nanos, fraction (front ++ rest) = some (nanos, rest) := by
  cases h with
  | absent =>
      refine ⟨0, ?_⟩
      cases rest with
      | nil => rfl
      | cons c rest =>
          rw [List.nil_append, fraction]
          rintro _ heq
          exact (hrest c rfl).2 (List.cons.inj heq).1
  | @decimals width n run hrun hpos =>
      have hne : run.isEmpty = false := by
        rw [List.isEmpty_eq_false_iff, ← List.length_pos_iff, hrun.length]
        exact hpos
      rw [List.cons_append, fraction,
        takeWhile_digits_append hrun.digits fun c hc => (hrest c hc).1, hne, List.drop_left]
      exact ⟨_, rfl⟩

theorem exists_of_fraction {nanos : Nat} (h : fraction t = some (nanos, rest)) :
    ∃ front part, IsFraction front part ∧ t = front ++ rest := by
  unfold fraction at h
  split at h
  · next t =>
      dsimp only at h
      split_ifs at h with hempty
      obtain ⟨-, rfl⟩ := Prod.mk.inj (Option.some.inj h)
      have hdigits : ∀ c ∈ t.takeWhile Char.isDigit, c.isDigit :=
        List.all_eq_true.mp List.all_takeWhile
      have hsplit := List.prefix_iff_eq_append.mp (t.takeWhile_prefix Char.isDigit)
      refine ⟨_, _, .decimals ⟨rfl, hdigits, rfl⟩ ?_, congrArg ('.' :: ·) hsplit.symm⟩
      rw [List.length_pos_iff, ← List.isEmpty_eq_false_iff]
      exact Bool.eq_false_iff.mpr hempty
  · obtain ⟨-, rfl⟩ := Prod.mk.inj (Option.some.inj h)
    exact ⟨[], 0, .absent, rfl⟩

/-! ### Timestamps -/

/-- A date and time of day with an offset. -/
structure Timestamp where
  date : Date
  hour : Nat
  minute : Nat
  /-- The second of the minute; sixty in a leap second. -/
  second : Nat
  part : ℚ
  /-- How far the clock is ahead of universal time, in seconds. -/
  shift : Int

namespace Timestamp

/-- The calendar and the clock have the time. -/
structure IsValid (stamp : Timestamp) : Prop where
  date : stamp.date.isValid
  hour : stamp.hour ≤ 23
  minute : stamp.minute ≤ 59
  second : stamp.second ≤ 60

/-- The second in universal time, without its fraction; a leap second counts as the one before. -/
def seconds (stamp : Timestamp) : Int :=
  stamp.date.dayNumber * 86400 + stamp.hour * 3600 + stamp.minute * 60 + min stamp.second 59 -
    stamp.shift

/-- How a date and time of day with an offset is written. -/
inductive IsWritten (stamp : Timestamp) : Text → Prop
  /-- All fields are numerals of two digits but the year, which has four. -/
  | fields {y : Nat} {year month day hour minute second fraction zone : Text} {separator : Char}
      (hdate : stamp.date.year = y) (hyear : IsNumeral 4 y year)
      (hmonth : IsNumeral 2 stamp.date.month month) (hday : IsNumeral 2 stamp.date.day day)
      (hseparator : separator = 'T' ∨ separator = 't' ∨ separator = ' ')
      (hhour : IsNumeral 2 stamp.hour hour) (hminute : IsNumeral 2 stamp.minute minute)
      (hsecond : IsNumeral 2 stamp.second second) (hfraction : IsFraction fraction stamp.part)
      (hzone : IsOffset zone stamp.shift) :
      IsWritten stamp (year ++ '-' :: (month ++ '-' :: (day ++ separator ::
        (hour ++ ':' :: (minute ++ ':' :: (second ++ (fraction ++ zone)))))))

/-- The time in universal time if the date is so many days after 1 January 1970. A leap second
counts as the second before it. -/
def moment (stamp : Timestamp) (days : Int) : ℚ :=
  86400 * days + 3600 * stamp.hour + 60 * stamp.minute + min stamp.second 59 + stamp.part -
    stamp.shift

/-- The fraction is dropped towards the past. -/
theorem IsWritten.seconds_eq_floor {stamp : Timestamp} (h : stamp.IsWritten t) :
    stamp.seconds = ⌊stamp.moment stamp.date.dayNumber⌋ := by
  obtain ⟨-, -, -, -, -, -, -, -, hfraction, -⟩ := h
  obtain ⟨hnonneg, hlt⟩ := hfraction.range
  have hmoment : stamp.moment stamp.date.dayNumber = stamp.seconds + stamp.part := by
    rw [moment, seconds]
    push_cast
    ring
  symm
  rw [Int.floor_eq_iff, hmoment]
  exact ⟨le_add_of_nonneg_right hnonneg, add_lt_add_of_le_of_lt (le_refl _) hlt⟩

end Timestamp

theorem isDigit_of_isMinus (h : isMinus c) : c.isDigit = false ∧ c ≠ '.' := by
  have hcode : c.toNat = 45 ∨ c.toNat = 8722 := by
    rcases Bool.or_eq_true_iff.mp h with hc | hc
    · exact Or.inl (by rw [eq_of_beq hc]; rfl)
    · exact Or.inr (eq_of_beq hc)
  constructor
  · rw [Bool.eq_false_iff, Ne, Char.isDigit_iff_toNat]
    simp only [Char.reduceToNat]
    omega
  · rintro rfl
    exact absurd hcode (by decide)

/-- An offset begins with no digit and no point. -/
theorem head?_isOffset {zone : Text} {shift : Int} (h : IsOffset zone shift) :
    ∀ c ∈ zone.head?, c.isDigit = false ∧ c ≠ '.' := by
  intro c hc
  cases h with
  | universal huniversal =>
      obtain rfl := Option.some.inj hc
      rcases huniversal with rfl | rfl <;> decide
  | ahead =>
      obtain rfl := Option.some.inj hc
      decide
  | behind hminus =>
      obtain rfl := Option.some.inj hc
      exact isDigit_of_isMinus hminus

theorem exists_of_parseTimestamp? {instant : Instant} (h : parseTimestamp? t = some instant) :
    ∃ stamp : Timestamp, stamp.IsWritten t ∧ stamp.IsValid ∧ stamp.seconds = instant.seconds := by
  rw [parseTimestamp?] at h
  -- Each step names its field and what is left behind it.
  obtain ⟨y, year, t₁, hyear, rfl, h₁⟩ := bind_digits_iff.mp h
  obtain ⟨t₂, rfl, h₂⟩ := bind_character_iff.mp h₁
  obtain ⟨m, month, t₃, hmonth, rfl, h₃⟩ := bind_digits_iff.mp h₂
  obtain ⟨t₄, rfl, h₄⟩ := bind_character_iff.mp h₃
  obtain ⟨d, day, t₅, hday, rfl, h₅⟩ := bind_digits_iff.mp h₄
  obtain ⟨separator, t₆, hseparator, rfl, h₆⟩ := bind_separator_iff.mp h₅
  obtain ⟨hours, hour, t₇, hhour, rfl, h₇⟩ := bind_digits_iff.mp h₆
  obtain ⟨t₈, rfl, h₈⟩ := bind_character_iff.mp h₇
  obtain ⟨minutes, minute, t₉, hminute, rfl, h₉⟩ := bind_digits_iff.mp h₈
  obtain ⟨t₁₀, rfl, h₁₀⟩ := bind_character_iff.mp h₉
  obtain ⟨count, second, t₁₁, hsecond, rfl, h₁₁⟩ := bind_digits_iff.mp h₁₀
  obtain ⟨⟨_, t₁₂⟩, hfraction, h₁₂⟩ := Option.bind_eq_some_iff.mp h₁₁
  obtain ⟨⟨shift, t₁₃⟩, hoffset, h₁₃⟩ := Option.bind_eq_some_iff.mp h₁₂
  obtain ⟨⟨hend, hdate, hhours, hminutes, hcount⟩, h₁₄⟩ := bind_guard_iff.mp h₁₃
  obtain ⟨front, part, hpart, rfl⟩ := exists_of_fraction hfraction
  obtain ⟨zone, hzone, rfl⟩ := exists_of_offset hoffset
  have hnothing : t₁₃ = [] := hend
  rw [hnothing, List.append_nil]
  refine ⟨⟨⟨y, m, d⟩, hours, minutes, count, part, shift⟩,
    .fields rfl hyear hmonth hday hseparator hhour hminute hsecond hpart hzone,
    ⟨hdate, hhours, hminutes, hcount⟩, ?_⟩
  rw [← Option.some.inj h₁₄, Timestamp.seconds]
  dsimp only
  split_ifs <;> omega

theorem Timestamp.IsWritten.parseTimestamp? {stamp : Timestamp} (h : stamp.IsWritten t)
    (hvalid : stamp.IsValid) :
    ∃ nanos, PublicationTime.parseTimestamp? t = some ⟨stamp.seconds, nanos⟩ := by
  obtain ⟨⟨year, month, day⟩, hour, minute, second, part, shift⟩ := stamp
  cases h with
  | @fields y _ _ _ _ _ _ front zone separator hdate hyear hmonth hday hseparator hhour hminute
      hsecond hfraction hzone =>
      -- The year of a date is an integer, and a numeral stands for a natural number.
      obtain rfl : year = y := hdate
      obtain ⟨nanos, hnanos⟩ := fraction_append hfraction (head?_isOffset hzone)
      have hoffset : offset zone = some (shift, []) := by
        rw [← offset_append hzone, List.append_nil]
      refine ⟨nanos + (if second = 60 then 1 else 0) * 1000000000, ?_⟩
      refine bind_digits_iff.mpr ⟨y, _, _, hyear, rfl, ?_⟩
      refine bind_character_iff.mpr ⟨_, rfl, ?_⟩
      refine bind_digits_iff.mpr ⟨month, _, _, hmonth, rfl, ?_⟩
      refine bind_character_iff.mpr ⟨_, rfl, ?_⟩
      refine bind_digits_iff.mpr ⟨day, _, _, hday, rfl, ?_⟩
      refine bind_separator_iff.mpr ⟨separator, _, hseparator, rfl, ?_⟩
      refine bind_digits_iff.mpr ⟨hour, _, _, hhour, rfl, ?_⟩
      refine bind_character_iff.mpr ⟨_, rfl, ?_⟩
      refine bind_digits_iff.mpr ⟨minute, _, _, hminute, rfl, ?_⟩
      refine bind_character_iff.mpr ⟨_, rfl, ?_⟩
      refine bind_digits_iff.mpr ⟨second, _, _, hsecond, rfl, ?_⟩
      refine Option.bind_eq_some_iff.mpr ⟨_, hnanos, ?_⟩
      refine Option.bind_eq_some_iff.mpr ⟨_, hoffset, ?_⟩
      refine bind_guard_iff.mpr
        ⟨⟨rfl, hvalid.date, hvalid.hour, hvalid.minute, hvalid.second⟩, ?_⟩
      rw [Option.pure_def, Option.some.injEq, Instant.mk.injEq, Timestamp.seconds]
      have hsecond : second ≤ 60 := hvalid.second
      refine ⟨?_, rfl⟩
      dsimp only
      split_ifs <;> omega

/-- Exactly the timestamps that are written and valid are accepted. -/
theorem parseTimestamp?_iff {seconds : Int} :
    (∃ nanos, parseTimestamp? t = some ⟨seconds, nanos⟩) ↔
      ∃ stamp : Timestamp, stamp.IsWritten t ∧ stamp.IsValid ∧ stamp.seconds = seconds := by
  constructor
  · rintro ⟨nanos, h⟩
    exact exists_of_parseTimestamp? h
  · rintro ⟨stamp, hwritten, hvalid, rfl⟩
    exact hwritten.parseTimestamp? hvalid

end PublicationTime

end SampleHarvest
