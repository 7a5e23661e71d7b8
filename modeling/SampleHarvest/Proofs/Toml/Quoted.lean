import Mathlib.Tactic.SplitIfs
import SampleHarvest.Toml.Grammar

/-!
# Quoted texts are read as they were written

Every text has a written form, and the readers take the text back from it. Between double quotes a
character stands for itself or has an escape, and the two readers know all of these escapes. What
can go wrong is at the quotes: over several lines three of them end the text, so no more than two
may stand together inside, and those at the end are read together with the closing ones.
-/

namespace SampleHarvest

namespace Toml

/-! ### Characters -/

theorem isPrintable_of_not_needsCode {c : Char} (h : ¬needsCode c) (hline : c ≠ '\n') :
    isPrintable c := by
  by_cases htab : c = '\t'
  · rw [htab]
    rfl
  · simp only [needsCode, isPrintable, Bool.or_eq_true, Bool.and_eq_true, decide_eq_true_eq,
      beq_iff_eq, ne_eq, htab, hline, not_false_eq_true, decide_true, and_true, false_or] at h ⊢
    omega

theorem ne_return_of_not_needsCode {c : Char} (h : ¬needsCode c) : c ≠ '\r' := by
  rintro rfl
  exact h (by decide)

inductive IsEscape (c : Char) : Text → Prop
  | letter {x : Char} (h : escaped? x = some c) : IsEscape c ['\\', x]
  | code (h : c.toNat < 0x80) : IsEscape c (codeText c)

theorem isEscape_of_escapeText? {c : Char} {written : Text} (h : escapeText? c = some written) :
    IsEscape c written := by
  rw [escapeText?] at h
  split_ifs at h with hback htab hfeed hreturn hslash hcode <;> obtain rfl := Option.some.inj h
  · exact .letter (by rw [hback]; rfl)
  · exact .letter (by rw [htab]; rfl)
  · exact .letter (by rw [hfeed]; rfl)
  · exact .letter (by rw [hreturn]; rfl)
  · exact .letter (by rw [hslash]; rfl)
  · have hcontrol := hcode.2
    simp only [needsCode, Bool.or_eq_true, Bool.and_eq_true, decide_eq_true_eq,
      beq_iff_eq] at hcontrol
    exact .code (by omega)

/-- A character without an escape is no backslash and can stand for itself. -/
theorem escapeText?_eq_none {c : Char} (h : escapeText? c = none) :
    c ≠ '\\' ∧ (c = '\n' ∨ isPrintable c) := by
  rw [escapeText?] at h
  split_ifs at h with hback htab hfeed hreturn hslash hcode
  refine ⟨hslash, ?_⟩
  by_cases hline : c = '\n'
  · exact .inl hline
  · exact .inr (isPrintable_of_not_needsCode (fun hneeds => hcode ⟨hline, hneeds⟩) hline)

theorem exists_written_cons (c : Char) :
    ∃ d u, (escapeText? c).getD [c] = d :: u ∧ (d = '\\' ∨ d = c ∧ c ≠ '\r') := by
  cases hescape : escapeText? c with
  | none =>
      refine ⟨c, [], rfl, .inr ⟨rfl, ?_⟩⟩
      rintro rfl
      cases hescape
  | some written =>
      cases isEscape_of_escapeText? hescape with
      | letter => exact ⟨'\\', _, rfl, .inl rfl⟩
      | code => exact ⟨'\\', _, rfl, .inl rfl⟩

theorem scalar?_code {c : Char} (h : c.toNat < 0x80) :
    scalar? ['0', '0', capitalHexDigit (c.toNat / 16), capitalHexDigit (c.toNat % 16)] =
      some c := by
  have hall : ∀ n < 0x80,
      scalar? ['0', '0', capitalHexDigit (n / 16), capitalHexDigit (n % 16)] =
        some (Char.ofNat n) := by decide
  rw [hall c.toNat h, Char.ofNat_toNat]

theorem ne_u_of_escaped? {c x : Char} (h : escaped? x = some c) : x ≠ 'u' ∧ x ≠ 'U' := by
  constructor <;> rintro rfl <;> cases h

/-! ### On one line -/

theorem basic_letter {c x : Char} (h : escaped? x = some c) (t : Text) :
    basic ('\\' :: x :: t) = push c (basic t) := by
  obtain ⟨hsmall, hlarge⟩ := ne_u_of_escaped? h
  rw [basic.eq_def]
  split
  case h_3 heq =>
    obtain ⟨-, heq⟩ := List.cons.inj heq
    obtain ⟨rfl, rfl⟩ := List.cons.inj heq
    rw [h]
  case h_4 hnone heq =>
    obtain ⟨rfl, rfl⟩ := List.cons.inj heq
    exact (hnone x t rfl rfl).elim
  all_goals
    rename_i heq
    cases heq
  · exact absurd rfl hsmall
  · exact absurd rfl hlarge

theorem basic_code (a b c d : Char) (t : Text) :
    basic ('\\' :: 'u' :: a :: b :: c :: d :: t) =
      match scalar? [a, b, c, d] with
      | some x => push x (basic t)
      | none => .error (badCode 4 (a :: b :: c :: d :: t)) :=
  rfl

theorem basic_escape {c : Char} {written : Text} (h : IsEscape c written) (t : Text) :
    basic (written ++ t) = push c (basic t) := by
  cases h with
  | letter h => exact basic_letter h t
  | code h =>
      refine (basic_code _ _ _ _ t).trans ?_
      rw [scalar?_code h]

theorem basic_plain {c : Char} (hquote : c ≠ '\x22') (hslash : c ≠ '\\') (h : isPrintable c)
    (t : Text) : basic (c :: t) = push c (basic t) := by
  rw [basic.eq_def]
  split
  case h_4 heq =>
    obtain ⟨rfl, rfl⟩ := List.cons.inj heq
    rw [if_neg hquote, if_pos ⟨hslash, h⟩]
  all_goals
    rename_i heq
    cases heq
  all_goals exact absurd rfl hslash

/-- A character as it is written on one line. -/
theorem basic_char {c : Char} (hquote : c ≠ '\x22') (hline : c ≠ '\n') (t : Text) :
    basic ((escapeText? c).getD [c] ++ t) = push c (basic t) := by
  cases hescape : escapeText? c with
  | none =>
      obtain ⟨hslash, hplain⟩ := escapeText?_eq_none hescape
      exact basic_plain hquote hslash (hplain.resolve_left hline) t
  | some written => exact basic_escape (isEscape_of_escapeText? hescape) t

theorem basic_basicText (t rest : Text) :
    basic (basicText t ++ '\x22' :: rest) = .ok (t, rest) := by
  induction t with
  | nil => rfl
  | cons c t ih =>
      have hpush : push c (basic (basicText t ++ '\x22' :: rest)) = .ok (c :: t, rest) := by
        rw [ih]
        rfl
      rw [basicText, ← hpush]
      split_ifs with hquote hline
      · have hescape : IsEscape c ['\\', '\x22'] := .letter (by rw [hquote]; rfl)
        exact basic_escape hescape _
      · have hescape : IsEscape c ['\\', 'n'] := .letter (by rw [hline]; rfl)
        exact basic_escape hescape _
      · rw [List.append_assoc]
        exact basic_char hquote hline _

theorem exists_basicText_cons (c : Char) (t : Text) :
    ∃ d u, d ≠ '\x22' ∧ basicText (c :: t) = d :: u := by
  rw [basicText]
  split_ifs with hquote hline
  · exact ⟨'\\', _, by decide, rfl⟩
  · exact ⟨'\\', _, by decide, rfl⟩
  · obtain ⟨d, u, hwritten, hd⟩ := exists_written_cons c
    refine ⟨d, u ++ basicText t, ?_, by rw [hwritten]; rfl⟩
    rcases hd with rfl | ⟨rfl, -⟩
    · decide
    · exact hquote

theorem literal_append {t : Text} (h : ∀ c ∈ t, c ≠ '\x27' ∧ isPrintable c) (rest : Text) :
    literal (t ++ '\x27' :: rest) = .ok (t, rest) := by
  induction t with
  | nil => simp [literal]
  | cons c t ih =>
      obtain ⟨⟨hquote, hplain⟩, ht⟩ := List.forall_mem_cons.mp h
      rw [List.cons_append, literal, if_neg hquote, if_pos hplain, ih ht]
      rfl

/-! ### Over several lines -/

/-- No line ends behind a backslash before a letter. -/
theorem endsLine_of_escaped? {c x : Char} (h : escaped? x = some c) (t : Text) :
    endsLine (x :: t) = false := by
  have hspace : isSpace x = false ∧ x ≠ '\n' ∧ x ≠ '\r' := by
    unfold escaped? at h
    split at h
    case h_8 => cases h
    all_goals exact ⟨rfl, by decide, by decide⟩
  obtain ⟨hspace, hline, hreturn⟩ := hspace
  simp [endsLine, hspace, afterLineEnd?, hline, hreturn]

theorem basicLines_letter {c x : Char} (h : escaped? x = some c) (t : Text) :
    basicLines false ('\\' :: x :: t) = push c (basicLines false t) := by
  obtain ⟨hsmall, hlarge⟩ := ne_u_of_escaped? h
  rw [basicLines.eq_def]
  split
  case h_9 heq =>
    obtain ⟨-, heq⟩ := List.cons.inj heq
    obtain ⟨rfl, rfl⟩ := List.cons.inj heq
    rw [endsLine_of_escaped? h, h]
    rfl
  case h_10 hnone heq =>
    obtain ⟨rfl, rfl⟩ := List.cons.inj heq
    exact (hnone x t rfl rfl).elim
  all_goals
    rename_i heq
    cases heq
  · exact absurd rfl hsmall
  · exact absurd rfl hlarge

theorem basicLines_code (a b c d : Char) (t : Text) :
    basicLines false ('\\' :: 'u' :: a :: b :: c :: d :: t) =
      match scalar? [a, b, c, d] with
      | some x => push x (basicLines false t)
      | none => .error (badCode 4 (a :: b :: c :: d :: t)) :=
  rfl

theorem basicLines_escape {c : Char} {written : Text} (h : IsEscape c written) (t : Text) :
    basicLines false (written ++ t) = push c (basicLines false t) := by
  cases h with
  | letter h => exact basicLines_letter h t
  | code h =>
      refine (basicLines_code _ _ _ _ t).trans ?_
      rw [scalar?_code h]

/-- What may follow a quote that does not close: another character, perhaps behind one more
quote. -/
inductive IsInside (closing : Char) : Text → Prop
  | char {c : Char} (h : c ≠ closing) (t : Text) : IsInside closing (c :: t)
  | quote {c : Char} (h : c ≠ closing) (t : Text) : IsInside closing (closing :: c :: t)

theorem IsInside.not_quotes {closing : Char} {t : Text} (h : IsInside closing t) (u : Text) :
    t ≠ closing :: closing :: u := by
  rintro rfl
  cases h with
  | char h => exact h rfl
  | quote h => exact h rfl

theorem basicLines_plain {c : Char} {t : Text} (hslash : c ≠ '\\') (h : c = '\n' ∨ isPrintable c)
    (hquote : c = '\x22' → IsInside '\x22' t) :
    basicLines false (c :: t) = push c (basicLines false t) := by
  have hreturn : c ≠ '\r' := by
    rintro rfl
    revert h
    decide
  rw [basicLines.eq_def]
  split
  case h_10 heq =>
    obtain ⟨rfl, rfl⟩ := List.cons.inj heq
    rw [if_neg (by simp), if_pos (h.imp_right fun h => ⟨hslash, h⟩)]
  all_goals
    rename_i heq
    cases heq
  case h_4 | h_5 => cases hquote rfl <;> contradiction
  case h_6 => exact absurd rfl hreturn
  case h_7 | h_8 | h_9 => exact absurd rfl hslash
  all_goals exact absurd rfl ((hquote rfl).not_quotes _)

theorem basicLines_char {c : Char} (hquote : c ≠ '\x22') (t : Text) :
    basicLines false ((escapeText? c).getD [c] ++ t) = push c (basicLines false t) := by
  cases hescape : escapeText? c with
  | none =>
      obtain ⟨hslash, hplain⟩ := escapeText?_eq_none hescape
      exact basicLines_plain hslash hplain fun hc => absurd hc hquote
  | some written => exact basicLines_escape (isEscape_of_escapeText? hescape) t

theorem basicLines_quote {t : Text} (h : IsInside '\x22' t) :
    basicLines false ('\x22' :: t) = push '\x22' (basicLines false t) :=
  basicLines_plain (by decide) (.inr rfl) fun _ => h

theorem basicLines_three {rest : Text} (hrest : ∀ t, rest ≠ '\x22' :: t) :
    basicLines false ('\x22' :: '\x22' :: '\x22' :: rest) = .ok ([], rest) := by
  rw [basicLines.eq_def]
  split
  case h_10 hthree _ _ _ _ _ _ heq =>
    cases heq
    exact (hthree rest rfl rfl).elim
  all_goals
    rename_i heq
    cases heq
  · exact absurd rfl (hrest _)
  · exact absurd rfl (hrest _)
  · rfl

theorem basicLines_four {rest : Text} (hrest : ∀ t, rest ≠ '\x22' :: t) :
    basicLines false ('\x22' :: '\x22' :: '\x22' :: '\x22' :: rest) = .ok (['\x22'], rest) := by
  rw [basicLines.eq_def]
  split
  case h_3 hfour heq =>
    cases heq
    exact (hfour rest rfl).elim
  case h_10 hthree _ _ _ _ _ _ heq =>
    cases heq
    exact (hthree _ rfl rfl).elim
  all_goals
    rename_i heq
    cases heq
  · exact absurd rfl (hrest _)
  · rfl

theorem basicLines_close {quotes : Nat} (hquotes : quotes ≤ 2) {rest : Text}
    (hrest : rest.head? ≠ some '\x22') :
    basicLines false (List.replicate quotes '\x22' ++ List.replicate 3 '\x22' ++ rest) =
      .ok (List.replicate quotes '\x22', rest) := by
  have hnone : ∀ t, rest ≠ '\x22' :: t := by
    rintro t rfl
    exact hrest rfl
  obtain rfl | rfl | rfl : quotes = 0 ∨ quotes = 1 ∨ quotes = 2 := by omega
  · exact basicLines_three hnone
  · exact basicLines_four hnone
  · rfl

/-- What is written after two quotes, or for another character, does not begin with a quote. -/
theorem exists_basicLinesText_cons {quotes : Nat} {c : Char} (h : c = '\x22' → 2 ≤ quotes)
    (t : Text) : ∃ d u, d ≠ '\x22' ∧ basicLinesText quotes (c :: t) = d :: u := by
  rw [basicLinesText]
  split_ifs with hquote hfew
  · exact absurd (h hquote) (by omega)
  · exact ⟨'\\', _, by decide, rfl⟩
  · obtain ⟨d, u, hwritten, hd⟩ := exists_written_cons c
    refine ⟨d, u ++ basicLinesText 0 t, ?_, by rw [hwritten]; rfl⟩
    rcases hd with rfl | ⟨rfl, -⟩
    · decide
    · exact hquote

/-- A quote that is written as it is, with what is written behind it. -/
theorem basicLines_quote_append {quotes : Nat} (hquotes : quotes < 2) {t rest : Text}
    (hrest : rest.head? ≠ some '\x22')
    (ih : ∀ quotes ≤ 2, basicLines false
      (basicLinesText quotes t ++ (List.replicate 3 '\x22' ++ rest)) = .ok (t, rest)) :
    basicLines false
        ('\x22' :: (basicLinesText (quotes + 1) t ++ (List.replicate 3 '\x22' ++ rest))) =
      .ok ('\x22' :: t, rest) := by
  match t with
  | [] => exact basicLines_close (show 1 ≤ 2 by decide) hrest
  | c :: t =>
      by_cases hc : c = '\x22' → 2 ≤ quotes + 1
      · obtain ⟨d, u, hd, hwritten⟩ := exists_basicLinesText_cons hc t
        have hread := ih (quotes + 1) hquotes
        rw [hwritten, List.cons_append] at hread ⊢
        rw [basicLines_quote (.char hd _), hread]
        rfl
      · obtain ⟨rfl, hfew⟩ := Classical.not_imp.mp hc
        obtain rfl : quotes = 0 := by omega
        have hsecond : ∀ t, basicLinesText 1 ('\x22' :: t) = '\x22' :: basicLinesText 2 t :=
          fun _ => rfl
        have hread := ih 1 (by decide)
        rw [hsecond, List.cons_append] at hread ⊢
        match t with
        | [] => exact basicLines_close (show 2 ≤ 2 by decide) hrest
        | c :: t =>
            obtain ⟨d, u, hd, hwritten⟩ :=
              exists_basicLinesText_cons (c := c) (fun _ => Nat.le_refl 2) t
            rw [hwritten, List.cons_append] at hread ⊢
            rw [basicLines_quote (.quote hd _), hread]
            rfl

theorem basicLines_basicLinesText {quotes : Nat} (hquotes : quotes ≤ 2) (t : Text) {rest : Text}
    (hrest : rest.head? ≠ some '\x22') :
    basicLines false (basicLinesText quotes t ++ (List.replicate 3 '\x22' ++ rest)) =
      .ok (t, rest) := by
  induction t generalizing quotes with
  | nil => exact basicLines_close (show 0 ≤ 2 by decide) hrest
  | cons c t ih =>
      have hpush : push c (basicLines false
          (basicLinesText 0 t ++ (List.replicate 3 '\x22' ++ rest))) = .ok (c :: t, rest) := by
        rw [ih (Nat.zero_le 2)]
        rfl
      rw [basicLinesText]
      split_ifs with hquote hfew
      · rw [hquote]
        exact basicLines_quote_append hfew hrest fun _ hle => ih hle
      · have hescape : IsEscape c ['\\', '\x22'] := .letter (by rw [hquote]; rfl)
        exact (basicLines_escape hescape _).trans hpush
      · rw [List.append_assoc, basicLines_char hquote, hpush]

/-! ### Without escapes -/

theorem le_longestRun (c : Char) (run : Nat) (t : Text) : run ≤ longestRun c run t := by
  induction t generalizing run with
  | nil => exact Nat.le_refl run
  | cons d t ih =>
      rw [longestRun]
      split_ifs
      · exact Nat.le_of_succ_le (ih (run + 1))
      · exact Nat.le_max_left ..

theorem longestRun_mono (c : Char) {run more : Nat} (h : run ≤ more) (t : Text) :
    longestRun c run t ≤ longestRun c more t := by
  induction t generalizing run more with
  | nil => exact h
  | cons d t ih =>
      rw [longestRun, longestRun]
      split_ifs
      · exact ih (Nat.succ_le_succ h)
      · omega

theorem longestRun_tail (c d : Char) (t : Text) :
    longestRun c 0 t ≤ longestRun c 0 (d :: t) := by
  rw [longestRun.eq_2]
  split_ifs
  · exact longestRun_mono c (Nat.zero_le 1) t
  · exact Nat.le_max_right ..

theorem literalLines_plain {c : Char} {t : Text} (h : c = '\n' ∨ isPrintable c)
    (hquote : c = '\x27' → IsInside '\x27' t ∧ goesOn t) :
    literalLines (c :: t) = push c (literalLines t) := by
  rw [literalLines.eq_def]
  split
  case h_5 heq =>
    obtain ⟨rfl, rfl⟩ := List.cons.inj heq
    have hgoes : c ≠ '\x27' ∨ goesOn t :=
      Decidable.or_iff_not_imp_left.mpr fun hc => (hquote (Decidable.not_not.mp hc)).2
    rw [if_pos ⟨h, hgoes⟩]
  all_goals
    rename_i heq
    cases heq
  case h_4 => exact absurd h (by decide)
  all_goals exact absurd rfl ((hquote rfl).1.not_quotes _)

theorem goesOn_cons {c : Char} (hc : c ≠ '\x27') (h : c = '\n' ∨ isPrintable c) (t : Text) :
    goesOn (c :: t) := by
  rw [goesOn, List.dropWhile_cons_of_neg (by simpa using hc)]
  rcases h with rfl | h
  · rfl
  · simp only [h, Bool.or_true, Bool.true_or]

theorem literalLines_close {quotes : Nat} (hquotes : quotes ≤ 2) {rest : Text}
    (hrest : rest.head? ≠ some '\x27') :
    literalLines (List.replicate quotes '\x27' ++ List.replicate 3 '\x27' ++ rest) =
      .ok (List.replicate quotes '\x27', rest) := by
  have hnone : ∀ t, rest ≠ '\x27' :: t := by
    rintro t rfl
    exact hrest rfl
  obtain rfl | rfl | rfl : quotes = 0 ∨ quotes = 1 ∨ quotes = 2 := by omega
  all_goals simp [List.replicate, literalLines, hnone]

/-- Single quotes without escapes, of which no three stand together. -/
theorem literalLines_append {t : Text} (hrun : longestRun '\x27' 0 t ≤ 2)
    (hplain : ∀ c ∈ t, c = '\n' ∨ isPrintable c) {rest : Text} (hrest : rest.head? ≠ some '\x27') :
    literalLines (t ++ (List.replicate 3 '\x27' ++ rest)) = .ok (t, rest) := by
  induction t with
  | nil => exact literalLines_close (show 0 ≤ 2 by decide) hrest
  | cons c t ih =>
      obtain ⟨hc, ht⟩ := List.forall_mem_cons.mp hplain
      have hread := ih (Nat.le_trans (longestRun_tail _ c t) hrun) ht
      have hpush : push c (literalLines (t ++ (List.replicate 3 '\x27' ++ rest))) =
          .ok (c :: t, rest) := by
        rw [hread]
        rfl
      by_cases hquote : c = '\x27'
      · subst hquote
        match t with
        | [] => exact literalLines_close (show 1 ≤ 2 by decide) hrest
        | c :: t =>
            by_cases hquote : c = '\x27'
            · subst hquote
              match t with
              | [] => exact literalLines_close (show 2 ≤ 2 by decide) hrest
              | c :: t =>
                  have hthird : c ≠ '\x27' := by
                    rintro rfl
                    exact absurd (Nat.le_trans (le_longestRun '\x27' 3 t) hrun) (by decide)
                  have hplain := (List.forall_mem_cons.mp (List.forall_mem_cons.mp ht).2).1
                  have hgoes : goesOn ('\x27' :: c :: (t ++ (List.replicate 3 '\x27' ++ rest))) :=
                    goesOn_cons hthird hplain _
                  exact (literalLines_plain hc fun _ => ⟨.quote hthird _, hgoes⟩).trans hpush
            · have hgoes := goesOn_cons hquote (List.forall_mem_cons.mp ht).1
                (t ++ (List.replicate 3 '\x27' ++ rest))
              exact (literalLines_plain hc fun _ => ⟨.char hquote _, hgoes⟩).trans hpush
      · exact (literalLines_plain hc fun heq => absurd heq hquote).trans hpush

/-! ### The four forms -/

theorem not_mem_of_longestRun {c : Char} {t : Text} (h : longestRun c 0 t = 0) : c ∉ t := by
  induction t with
  | nil => exact List.not_mem_nil
  | cons d t ih =>
      have htail := longestRun_tail c d t
      have hne : c ≠ d := by
        rintro rfl
        have hone : 1 ≤ longestRun c 0 (c :: t) := by
          rw [longestRun, if_pos rfl]
          exact le_longestRun c 1 t
        omega
      exact List.not_mem_cons_of_ne_of_not_mem hne (ih (by omega))

theorem contains_singleton (c : Char) (t : Text) : t.contains [c] = t.any (· == c) := by
  induction t with
  | nil => rfl
  | cons d t ih =>
      rw [Text.contains, ih, List.any_cons, Text.startsWith, List.isPrefixOf_cons_cons,
        List.isPrefixOf_nil_left, Bool.and_true, Bool.beq_comm]

/-- What follows a text in quotes does not begin with another quote. -/
def IsBehind (rest : Text) : Prop := rest.head? ≠ some '\x22' ∧ rest.head? ≠ some '\x27'

theorem quoted_basicText (t : Text) {rest : Text} (hrest : IsBehind rest) :
    quoted ('\x22' :: (basicText t ++ ['\x22']) ++ rest) = .ok (t, rest) := by
  have hnone : ∀ u, basicText t ++ '\x22' :: rest ≠ '\x22' :: '\x22' :: u := by
    intro u hu
    match t with
    | [] =>
        obtain rfl : rest = '\x22' :: u := List.tail_eq_of_cons_eq hu
        exact hrest.1 rfl
    | c :: t =>
        obtain ⟨d, v, hd, hwritten⟩ := exists_basicText_cons c t
        rw [hwritten] at hu
        exact hd (List.head_eq_of_cons_eq hu)
  rw [List.cons_append, List.append_assoc, List.singleton_append, quoted.eq_2 _ hnone,
    basic_basicText]

theorem quoted_literal {t : Text} (h : ∀ c ∈ t, c ≠ '\x27' ∧ isPrintable c) {rest : Text}
    (hrest : IsBehind rest) : quoted ('\x27' :: (t ++ ['\x27']) ++ rest) = .ok (t, rest) := by
  have hnone : ∀ u, t ++ '\x27' :: rest ≠ '\x27' :: '\x27' :: u := by
    intro u hu
    match t with
    | [] =>
        obtain rfl : rest = '\x27' :: u := List.tail_eq_of_cons_eq hu
        exact hrest.2 rfl
    | c :: t => exact (h c List.mem_cons_self).1 (List.head_eq_of_cons_eq hu)
  rw [List.cons_append, List.append_assoc, List.singleton_append, quoted.eq_4 _ hnone,
    literal_append h]

/-- The line feed behind the opening quotes is dropped; without one nothing is. -/
theorem dropLineEnd_lead {t inside : Text}
    (h : t.any (· == '\n') ∨ ∃ c u, inside = c :: u ∧ c ≠ '\n' ∧ c ≠ '\r') :
    dropLineEnd ((if t.contains ['\n'] then ['\n'] else []) ++ inside) = inside := by
  rw [contains_singleton]
  split_ifs with hline
  · rfl
  · obtain ⟨c, u, rfl, hline, hreturn⟩ := h.resolve_left hline
    simp [dropLineEnd, afterLineEnd?, hline, hreturn]

/-- Where no line feed is put in front, the inside does not begin with a line end. -/
theorem exists_inside_cons {t : Text} (h : ¬t.any (· == '\n')) (rest : Text) :
    ∃ c u, basicLinesText 0 t ++ (List.replicate 3 '\x22' ++ rest) = c :: u ∧
      c ≠ '\n' ∧ c ≠ '\r' := by
  match t with
  | [] => exact ⟨'\x22', _, rfl, by decide, by decide⟩
  | c :: t =>
      rw [basicLinesText]
      split_ifs with hquote hfew
      · exact ⟨'\x22', _, rfl, by decide, by decide⟩
      · exact ⟨'\\', _, rfl, by decide, by decide⟩
      · obtain ⟨d, u, hwritten, hd⟩ := exists_written_cons c
        refine ⟨d, _, by rw [hwritten]; rfl, ?_⟩
        rcases hd with rfl | ⟨rfl, hreturn⟩
        · exact ⟨by decide, by decide⟩
        · refine ⟨?_, hreturn⟩
          rintro rfl
          exact h rfl

theorem quoted_basicLinesText (t : Text) {rest : Text} (hrest : IsBehind rest) :
    quoted (betweenTriples '\x22' t (basicLinesText 0 t) ++ rest) = .ok (t, rest) := by
  have hlead : t.any (· == '\n') ∨ ∃ c u,
      basicLinesText 0 t ++ (List.replicate 3 '\x22' ++ rest) = c :: u ∧ c ≠ '\n' ∧ c ≠ '\r' := by
    by_cases hline : t.any (· == '\n')
    · exact .inl hline
    · exact .inr (exists_inside_cons hline rest)
  have hread := basicLines_basicLinesText (Nat.zero_le 2) t hrest.1
  rw [← dropLineEnd_lead hlead] at hread
  rw [betweenTriples, List.append_assoc, List.append_assoc, List.append_assoc]
  exact hread

theorem quoted_literalLines {t : Text} (hrun : longestRun '\x27' 0 t ≤ 2)
    (h : ∀ c ∈ t, ¬needsCode c) {rest : Text} (hrest : IsBehind rest) :
    quoted (betweenTriples '\x27' t t ++ rest) = .ok (t, rest) := by
  have hplain : ∀ c ∈ t, c = '\n' ∨ isPrintable c := by
    intro c hc
    by_cases hline : c = '\n'
    · exact .inl hline
    · exact .inr (isPrintable_of_not_needsCode (h c hc) hline)
  have hlead : t.any (· == '\n') ∨ ∃ c u,
      t ++ (List.replicate 3 '\x27' ++ rest) = c :: u ∧ c ≠ '\n' ∧ c ≠ '\r' := by
    match t with
    | [] => exact .inr ⟨'\x27', _, rfl, by decide, by decide⟩
    | c :: t =>
        by_cases hline : c = '\n'
        · exact .inl (by rw [hline]; rfl)
        · exact .inr ⟨c, _, rfl, hline,
            ne_return_of_not_needsCode (h c List.mem_cons_self)⟩
  have hread := literalLines_append hrun hplain hrest.2
  rw [← dropLineEnd_lead hlead] at hread
  rw [betweenTriples, List.append_assoc, List.append_assoc, List.append_assoc]
  exact hread

theorem quoted_stringText (t : Text) {rest : Text} (hrest : IsBehind rest) :
    quoted (stringText t ++ rest) = .ok (t, rest) := by
  have hcodes : t.any needsCode = false → ∀ c ∈ t, ¬needsCode c := fun h c hc =>
    List.any_eq_false.mp h c hc
  rw [stringText]
  split_ifs with hplain hliteral hlines hliteralLines hlong
  · exact quoted_basicText t hrest
  · simp only [Bool.and_eq_true, Bool.not_eq_true', beq_iff_eq] at hliteral
    obtain ⟨⟨hcoded, hlong⟩, hsingles⟩ := hliteral
    refine quoted_literal (fun c hc => ⟨?_, ?_⟩) hrest
    · rintro rfl
      exact not_mem_of_longestRun hsingles hc
    · refine isPrintable_of_not_needsCode (hcodes hcoded c hc) ?_
      simpa using List.any_eq_false.mp hlong c hc
  · exact quoted_basicLinesText t hrest
  · simp only [Bool.and_eq_true, Bool.not_eq_true', decide_eq_true_eq] at hliteralLines
    exact quoted_literalLines hliteralLines.2 (hcodes hliteralLines.1) hrest
  · exact quoted_basicLinesText t hrest
  · exact quoted_basicText t hrest

/-- A written text begins with a quote. -/
theorem exists_stringText_cons (t : Text) :
    ∃ c u, stringText t = c :: u ∧ (c = '\x22' ∨ c = '\x27') := by
  rw [stringText]
  split_ifs
  · exact ⟨_, _, rfl, .inl rfl⟩
  · exact ⟨_, _, rfl, .inr rfl⟩
  · exact ⟨_, _, rfl, .inl rfl⟩
  · exact ⟨_, _, rfl, .inr rfl⟩
  · exact ⟨_, _, rfl, .inl rfl⟩
  · exact ⟨_, _, rfl, .inl rfl⟩

theorem value_stringText (depth : Nat) (t : Text) {rest : Text} (hrest : IsBehind rest) :
    value depth (stringText t ++ rest) = .ok (.string t, rest) := by
  have hread := quoted_stringText t hrest
  obtain ⟨c, u, hwritten, rfl | rfl⟩ := exists_stringText_cons t
  all_goals
    rw [hwritten, List.cons_append] at hread ⊢
    simp only [value, hread]
    rfl

end Toml

end SampleHarvest
