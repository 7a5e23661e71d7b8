import Mathlib.Data.List.TakeWhile
import SampleHarvest.Proofs.Toml.Written

/-!
# Numerals are read as numbers

What begins like a number is tried as a point in time and as a fraction first. A run of digits with
a line end behind it is neither, and the readers say so in a way that leaves the place to others.
It is then read as the whole number that it stands for, if this is not too great.
-/

namespace SampleHarvest

namespace Toml

/-- A reader takes nothing here and leaves the place to others. -/
def Leaves {α : Type} (read : Reader α) (t : Text) : Prop :=
  ∃ fault, read t = .error fault ∧ fault.isFinal = false

section

variable {α β : Type} {read first second : Reader α} {t : Text}

theorem Leaves.inside (h : Leaves read t) (kind : Text) : Leaves (inside kind read) t := by
  obtain ⟨fault, hread, hfinal⟩ := h
  exact ⟨fault.inside kind, by rw [Toml.inside, hread]; rfl, hfinal⟩

theorem Leaves.orElse (h : Leaves first t) : orElse first second t = second t := by
  obtain ⟨fault, hread, hfinal⟩ := h
  rw [Toml.orElse, hread]
  simp [hfinal]

theorem Leaves.optional (h : Leaves read t) : optional read t = .ok (none, t) := by
  obtain ⟨fault, hread, hfinal⟩ := h
  rw [Toml.optional, hread]
  simp [hfinal]

theorem leaves_here {t : Text} (h : read t = .error (.here t)) : Leaves read t := ⟨_, h, rfl⟩

end

variable {run rest : Text}

/-! ### Points in time -/

/-- Among digits with a line end behind them there is no other sign. -/
theorem exactly_leaves (hrun : ∀ c ∈ run, c.isDigit) (sign : Char) (hdigit : sign.isDigit = false)
    (hline : sign ≠ '\n') (rest : Text) : Leaves (exactly [sign]) (run ++ '\n' :: rest) := by
  refine leaves_here ?_
  match run with
  | [] => simp [exactly, Text.after?, hline.symm]
  | c :: run =>
      have hne : c ≠ sign := by
        rintro rfl
        rw [hrun c List.mem_cons_self] at hdigit
        cases hdigit
      simp [exactly, Text.after?, hne]

/-- Some of the digits are taken, unless there are too few. -/
theorem digits_run (hrun : ∀ c ∈ run, c.isDigit) (count : Nat) (rest : Text) :
    Leaves (digits count) (run ++ '\n' :: rest) ∨ ∃ n back, (∀ c ∈ back, c.isDigit) ∧
      digits count (run ++ '\n' :: rest) = .ok (n, back ++ '\n' :: rest) := by
  by_cases hcount : count ≤ run.length
  · have htaken : ((run ++ '\n' :: rest).take count).takeWhile Char.isDigit = run.take count := by
      rw [List.take_append_of_le_length hcount]
      exact List.takeWhile_eq_self_iff.mpr fun c hc => hrun c (List.mem_of_mem_take hc)
    refine .inr ⟨Text.digitsValue 0 (run.take count), run.drop count,
      fun c hc => hrun c (List.mem_of_mem_drop hc), ?_⟩
    rw [digits, htaken, List.length_take_of_le hcount, if_neg (Nat.lt_irrefl count),
      List.drop_append_of_le_length hcount]
  · have hmore : 0 < count - run.length := by omega
    have htaken : ((run ++ '\n' :: rest).take count).takeWhile Char.isDigit = run := by
      obtain ⟨more, hmore⟩ := Nat.exists_eq_add_one_of_ne_zero (Nat.ne_of_gt hmore)
      rw [List.take_append, List.take_of_length_le (by omega), hmore, List.take_succ_cons,
        List.takeWhile_append_of_pos hrun, List.takeWhile_cons_of_neg (by decide), List.append_nil]
    refine .inl (leaves_here ?_)
    rw [digits, htaken, if_pos (by omega)]

theorem date_leaves (hrun : ∀ c ∈ run, c.isDigit) (rest : Text) :
    Leaves date (run ++ '\n' :: rest) := by
  rcases digits_run hrun 4 rest with ⟨fault, hfault, hfinal⟩ | ⟨year, back, hback, hyear⟩
  · exact ⟨fault, by rw [date, hfault]; rfl, hfinal⟩
  · obtain ⟨fault, hfault, hfinal⟩ :=
      exactly_leaves hback '-' (by decide) (by decide) rest
    refine ⟨fault, ?_, hfinal⟩
    rw [date, hyear]
    dsimp only [bind, Except.bind]
    rw [hfault]

theorem timeOfDay_leaves (hrun : ∀ c ∈ run, c.isDigit) (rest : Text) :
    Leaves timeOfDay (run ++ '\n' :: rest) := by
  rcases digits_run hrun 2 rest with ⟨fault, hfault, hfinal⟩ | ⟨hour, back, hback, hhour⟩
  · exact ⟨fault, by rw [timeOfDay, twoDigits, hfault]; rfl, hfinal⟩
  · by_cases hrange : 0 ≤ hour ∧ hour ≤ 23
    · obtain ⟨fault, hfault, hfinal⟩ :=
        exactly_leaves hback ':' (by decide) (by decide) rest
      refine ⟨fault, ?_, hfinal⟩
      rw [timeOfDay, twoDigits, hhour]
      dsimp only [bind, Except.bind]
      rw [if_pos hrange]
      dsimp only [pure, Except.pure]
      rw [hfault]
    · refine ⟨.because (run ++ '\n' :: rest) outOfRange, ?_, rfl⟩
      rw [timeOfDay, twoDigits, hhour]
      dsimp only [bind, Except.bind]
      rw [if_neg hrange]
      rfl

theorem timeValue_leaves (hrun : ∀ c ∈ run, c.isDigit) (rest : Text) :
    Leaves timeValue (run ++ '\n' :: rest) := by
  have hdate : Leaves dateAndTime (run ++ '\n' :: rest) := by
    obtain ⟨fault, hfault, hfinal⟩ := date_leaves hrun rest
    exact Leaves.inside ⟨fault, by rw [hfault]; rfl, hfinal⟩ "date-time"
  obtain ⟨fault, hfault, hfinal⟩ := (timeOfDay_leaves hrun rest).inside "time"
  exact ⟨fault, by rw [timeValue, hdate.orElse, hfault]; rfl, hfinal⟩

/-! ### Fractions -/

theorem moreDigits_run (hrun : ∀ c ∈ run, c.isDigit) {most : Nat} (hmost : run.length < most)
    (rest : Text) :
    moreDigits Char.isDigit most (run ++ '\n' :: rest) = .ok (run, '\n' :: rest) := by
  induction run generalizing most with
  | nil =>
      obtain ⟨most, rfl⟩ := Nat.exists_eq_add_one_of_ne_zero (Nat.ne_of_gt hmost)
      rfl
  | cons c run ih =>
      obtain ⟨hc, hrun⟩ := List.forall_mem_cons.mp hrun
      obtain ⟨most, rfl⟩ := Nat.exists_eq_add_one_of_ne_zero (Nat.ne_of_gt (Nat.zero_lt_of_lt hmost))
      rw [List.cons_append, moreDigits, if_pos hc, ih hrun (Nat.lt_of_succ_lt_succ hmost)]
      rfl

theorem groupedDigits_run {c : Char} (hc : c.isDigit) (hrun : ∀ c ∈ run, c.isDigit) (rest : Text) :
    groupedDigits Char.isDigit (c :: run ++ '\n' :: rest) = .ok (c :: run, '\n' :: rest) := by
  have hmore := moreDigits_run hrun
    (show run.length < (run ++ '\n' :: rest).length by simp) rest
  rw [groupedDigits, List.cons_append, one, if_pos hc]
  dsimp only [bind, Except.bind]
  rw [hmore]
  rfl

theorem exists_ofNat_cons (n : Nat) : ∃ c run, Text.ofNat n = c :: run ∧ c.isDigit ∧
    ∀ d ∈ run, d.isDigit := by
  obtain ⟨c, run, hdigits⟩ := List.exists_cons_of_ne_nil (Nat.toDigits_ne_nil (b := 10) (n := n))
  have hall : ∀ d ∈ Text.ofNat n, d.isDigit := fun _ => Text.isDigit_of_mem_ofNat
  rw [Text.ofNat, hdigits] at hall
  exact ⟨c, run, hdigits, List.forall_mem_cons.mp hall⟩

theorem sign_digit {c : Char} (hc : c.isDigit) (t : Text) : sign (c :: t) = .ok (false, c :: t) := by
  have hplus : c ≠ '+' := by
    rintro rfl
    cases hc
  have hminus : c ≠ '-' := by
    rintro rfl
    cases hc
  simp [sign, hplus, hminus]

/-- A numeral is taken as a whole: only zero begins with a zero. -/
theorem decimal_ofNat (n : Nat) (rest : Text) :
    decimal (Text.ofNat n ++ '\n' :: rest) = .ok ((false, Text.ofNat n), '\n' :: rest) := by
  obtain ⟨c, run, hdigits, hc, hrun⟩ := exists_ofNat_cons n
  refine inside_ok ?_
  rw [hdigits, List.cons_append, sign_digit hc]
  dsimp only [bind, Except.bind]
  by_cases hzero : c = '0'
  · subst hzero
    obtain rfl := Text.eq_zero_of_ofNat hdigits
    obtain rfl : [] = run := List.tail_eq_of_cons_eq hdigits
    rfl
  · split
    · rename_i hhead
      exact absurd (List.head_eq_of_cons_eq hhead) hzero
    · rw [← List.cons_append, groupedDigits_run hc hrun]
      rfl

theorem pointNumber_leaves (n : Nat) (rest : Text) :
    Leaves pointNumber (Text.ofNat n ++ '\n' :: rest) := by
  have hpoint : Leaves decimals ('\n' :: rest) := leaves_here rfl
  have hexponent : Leaves exponent ('\n' :: rest) := leaves_here rfl
  refine ⟨.here ('\n' :: rest), ?_, rfl⟩
  rw [pointNumber, decimal_ofNat]
  dsimp only [bind, Except.bind]
  rw [hpoint.optional]
  dsimp only
  rw [hexponent.optional]
  rfl

theorem signedNumber_leaves (n : Nat) (rest : Text) :
    Leaves signedNumber (Text.ofNat n ++ '\n' :: rest) := by
  obtain ⟨c, run, hdigits, hc, -⟩ := exists_ofNat_cons n
  have hname : namedNumber (c :: (run ++ '\n' :: rest)) =
      .error (.here (c :: (run ++ '\n' :: rest))) := by
    have hi : c ≠ 'i' := by
      rintro rfl
      cases hc
    have hn : c ≠ 'n' := by
      rintro rfl
      cases hc
    simp [namedNumber, Text.after?, hi, hn]
  refine leaves_here ?_
  rw [hdigits, List.cons_append, signedNumber, sign_digit hc]
  dsimp only [bind, Except.bind]
  rw [hname]

theorem fractionValue_leaves (n : Nat) (rest : Text) :
    Leaves fractionValue (Text.ofNat n ++ '\n' :: rest) := by
  refine Leaves.inside ?_ "floating-point number"
  obtain ⟨fault, hfault, hfinal⟩ := signedNumber_leaves n rest
  obtain ⟨point, hpoint, hpointFinal⟩ := pointNumber_leaves n rest
  refine ⟨fault, ?_, hfinal⟩
  rw [Leaves.orElse ⟨point, by rw [hpoint]; rfl, hpointFinal⟩, hfault]

/-! ### Whole numbers -/

theorem wholeNumber_ofNat {n : Nat} (hn : (n : Int) ≤ maxInteger) (rest : Text) :
    wholeNumber (Text.ofNat n ++ '\n' :: rest) = .ok ((n : Int), '\n' :: rest) := by
  have hrange : ∀ t, inRange t (n : Int) = .ok (n : Int) := by
    intro t
    have hleast : ¬(n : Int) < minInteger := by
      rw [minInteger]
      omega
    rw [inRange, if_neg hleast, if_neg (by omega)]
  have hvalue : Text.digitsValue 0 (Text.ofNat n) = n := Nat.ofDigitChars_ten_toDigits
  -- Behind a zero stands the line end, and so no mark of another base.
  have hbase : ∀ x, x ≠ '\n' → ∀ u, Text.ofNat n ++ '\n' :: rest ≠ '0' :: x :: u := by
    intro x hx u hu
    obtain ⟨c, run, hdigits, -⟩ := exists_ofNat_cons n
    rw [hdigits, List.cons_append] at hu
    obtain rfl := List.head_eq_of_cons_eq hu
    obtain rfl := Text.eq_zero_of_ofNat hdigits
    obtain rfl : [] = run := List.tail_eq_of_cons_eq hdigits
    exact hx (List.head_eq_of_cons_eq (List.tail_eq_of_cons_eq hu)).symm
  rw [wholeNumber.eq_4 _ (hbase 'x' (by decide)) (hbase 'o' (by decide)) (hbase 'b' (by decide)),
    decimal_ofNat]
  dsimp only [bind, Except.bind]
  rw [hvalue, if_neg Bool.false_ne_true, hrange]
  rfl

/-- A numeral is read as the number that it stands for. -/
theorem value_ofNat {n : Nat} (hn : (n : Int) ≤ maxInteger) (depth : Nat) (rest : Text) :
    value depth (Text.ofNat n ++ '\n' :: rest) = .ok (.integer n, '\n' :: rest) := by
  have hnumber : number (Text.ofNat n ++ '\n' :: rest) = .ok (.integer n, '\n' :: rest) := by
    have htime : Leaves timeValue (Text.ofNat n ++ '\n' :: rest) :=
      timeValue_leaves (fun _ => Text.isDigit_of_mem_ofNat) rest
    rw [number, htime.orElse, (fractionValue_leaves n rest).orElse, wholeNumber_ofNat hn]
    rfl
  obtain ⟨c, run, hdigits, hc, -⟩ := exists_ofNat_cons n
  have hne : ∀ d, d.isDigit = false → c ≠ d := by
    rintro d hd rfl
    rw [hc] at hd
    cases hd
  rw [hdigits, List.cons_append] at hnumber ⊢
  simp [value, plain, hc, hne '\x5b' rfl, hne '\x7b' rfl, hne '\x22' rfl, hne '\x27' rfl, hnumber]

end Toml

end SampleHarvest
