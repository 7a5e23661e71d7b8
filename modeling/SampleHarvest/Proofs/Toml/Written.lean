import SampleHarvest.Proofs.Text.Decimal
import SampleHarvest.Proofs.Text.Trim
import SampleHarvest.Proofs.Toml.Quoted

/-!
# Written values are read as the values

What is written for an array or a number is read back, whatever follows it on the line. An array
goes over several lines if it has two or more elements, and ends where no further element can begin.
What begins like a number is tried as a point in time and as a fraction first; a run of digits with
a line end behind it is neither.
-/

namespace SampleHarvest

namespace Toml

/-! ### Readers that succeed -/

section

variable {α : Type} {read : Reader α} {t : Text} {result : α × Text}

theorem final_ok (h : read t = .ok result) : final read t = .ok result := by
  rw [final, h]
  rfl

theorem inside_ok {kind : Text} (h : read t = .ok result) : inside kind read t = .ok result := by
  rw [inside, h]
  rfl

theorem expecting_ok {expected : List Text} (h : read t = .ok result) :
    expecting expected read t = .ok result := by
  rw [expecting, h]
  rfl

theorem exactly_append (wanted rest : Text) : exactly wanted (wanted ++ rest) = .ok ((), rest) := by
  rw [exactly, Text.after?_eq_some_iff.mpr rfl]

end

/-! ### Arrays -/

variable {depth : Nat} {texts : List Text} {rest : Text}

theorem skipLines_stringText (t rest : Text) :
    skipLines false (stringText t ++ rest) = stringText t ++ rest := by
  obtain ⟨c, u, hwritten, rfl | rfl⟩ := exists_stringText_cons t
  all_goals
    rw [hwritten]
    simp [skipLines, isSpace]

theorem skipLines_bracket (rest : Text) : skipLines false ('\x5d' :: rest) = '\x5d' :: rest := by
  simp [skipLines, isSpace]

/-- No value begins with a closing bracket, and something else may be read there. -/
theorem optional_value_bracket (depth : Nat) (rest : Text) :
    optional (value depth) ('\x5d' :: rest) = .ok (none, '\x5d' :: rest) := by
  have hname : namedNumber ('\x5d' :: rest) = .error (.here ('\x5d' :: rest)) := by
    simp [namedNumber, Text.after?]
  simp [optional, value, plain, orQuoted, expecting, inside, hname, Except.mapError,
    Fault.expecting, Fault.inside, Fault.here]

theorem elements_bracket (depth most : Nat) {t : Text} (h : skipLines false t = '\x5d' :: rest) :
    elements (value depth) (most + 1) t = .ok ([], '\x5d' :: rest) := by
  rw [elements]
  dsimp only
  rw [h, optional_value_bracket]
  rfl

theorem isBehind_cons {c : Char} (hdouble : c ≠ '\x22') (hsingle : c ≠ '\x27') (t : Text) :
    IsBehind (c :: t) := by
  simp [IsBehind, hdouble, hsingle]

theorem elements_comma {most : Nat} {t start : Text}
    (hstart : skipLines false start = stringText t ++ ',' :: rest) :
    elements (value depth) (most + 1) start =
      (elements (value depth) most rest).map fun (others, rest) => (.string t :: others, rest) := by
  have hcomma : skipLines false (',' :: rest) = ',' :: rest := by simp [skipLines, isSpace]
  rw [elements]
  dsimp only
  rw [hstart, optional, value_stringText depth t (isBehind_cons (by decide) (by decide) rest)]
  dsimp only [bind, Except.bind]
  rw [hcomma]
  change (elements (value depth) most rest).bind (fun found =>
    .ok (.string t :: found.1, found.2)) = _
  cases elements (value depth) most rest <;> rfl

theorem elements_last {most : Nat} {t start : Text}
    (hstart : skipLines false start = stringText t ++ '\x5d' :: rest) :
    elements (value depth) (most + 1) start = .ok ([.string t], '\x5d' :: rest) := by
  rw [elements]
  dsimp only
  rw [hstart, optional, value_stringText depth t (isBehind_cons (by decide) (by decide) rest)]
  dsimp only [bind, Except.bind]
  rw [skipLines_bracket]
  rfl

def elementLines (texts : List Text) : Text :=
  '\n' :: texts.flatMap fun t => "    " ++ stringText t ++ [',', '\n']

theorem elementLines_cons (t : Text) (texts : List Text) :
    elementLines (t :: texts) =
      '\n' :: ' ' :: ' ' :: ' ' :: ' ' :: (stringText t ++ ',' :: elementLines texts) := by
  simp [elementLines]

theorem elements_elementLines {most : Nat} (hmost : texts.length < most) :
    elements (value depth) most (elementLines texts ++ '\x5d' :: rest) =
      .ok (texts.map .string, '\x5d' :: rest) := by
  induction texts generalizing most with
  | nil =>
      obtain ⟨most, rfl⟩ := Nat.exists_eq_add_one_of_ne_zero (Nat.ne_of_gt hmost)
      exact elements_bracket depth most (by simp [elementLines, skipLines, isSpace])
  | cons t texts ih =>
      obtain ⟨most, rfl⟩ := Nat.exists_eq_add_one_of_ne_zero (Nat.ne_of_gt (Nat.zero_lt_of_lt hmost))
      have hskip : skipLines false (elementLines (t :: texts) ++ '\x5d' :: rest) =
          stringText t ++ ',' :: (elementLines texts ++ '\x5d' :: rest) := by
        rw [← skipLines_stringText, elementLines_cons]
        simp [skipLines, isSpace]
      rw [elements_comma hskip, ih (Nat.lt_of_succ_lt_succ hmost)]
      rfl

theorem length_lt_elementLines (texts : List Text) : texts.length < (elementLines texts).length := by
  induction texts with
  | nil => exact Nat.zero_lt_one
  | cons t texts ih =>
      rw [elementLines_cons]
      simp only [List.length_cons, List.length_append]
      omega

theorem arrayValue_elements {element : Reader Toml} {t : Text} {found : List Toml}
    (h : elements element (t.length + 1) t = .ok (found, '\x5d' :: rest)) :
    arrayValue element t = .ok (.array found, rest) := by
  have hclose : expecting [mark ['\x5d']] (inside "array" (final (exactly ['\x5d'])))
      ('\x5d' :: rest) = .ok ((), rest) := expecting_ok (inside_ok (final_ok (exactly_append _ rest)))
  rw [arrayValue, h]
  dsimp only [bind, Except.bind]
  rw [hclose]
  rfl

theorem value_arrayText (depth : Nat) (texts : List Text) (rest : Text) :
    value (depth + 1) (arrayText texts ++ rest) = .ok (.array (texts.map .string), rest) := by
  match texts with
  | [] =>
      exact arrayValue_elements (elements_bracket depth _ (skipLines_bracket rest))
  | [t] =>
      have hstart := skipLines_stringText t ('\x5d' :: rest)
      rw [arrayText, List.cons_append, List.append_assoc]
      exact arrayValue_elements (elements_last hstart)
  | t :: u :: texts =>
      have hlength := length_lt_elementLines (t :: u :: texts)
      have hread : elements (value depth)
          ((elementLines (t :: u :: texts) ++ '\x5d' :: rest).length + 1)
          (elementLines (t :: u :: texts) ++ '\x5d' :: rest) = _ := elements_elementLines (by
        rw [List.length_append]
        omega)
      have hwritten : arrayText (t :: u :: texts) ++ rest =
          '\x5b' :: (elementLines (t :: u :: texts) ++ '\x5d' :: rest) := by
        simp [arrayText, elementLines]
      rw [hwritten]
      exact arrayValue_elements hread

end Toml

end SampleHarvest
