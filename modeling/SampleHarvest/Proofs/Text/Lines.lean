import Mathlib.Tactic.SplitIfs
import SampleHarvest.Text.Lines

/-!
# Lines of a text

A text is its first line with its line feed and the rest, and what holds of a text is proved line by
line. Every line holds something: it ends with its line feed or is the rest of a text that goes on.
Only the last line can be without a line feed, so lines of a text that are put together in their
order are the lines of what they make.
-/

namespace SampleHarvest

theorem splitLines_append_lineFeed {front : Text} (h : '\n' ∉ front) (rest : Text) :
    splitLines (front ++ '\n' :: rest) = (front ++ ['\n']) :: splitLines rest := by
  induction front with
  | nil => rw [List.nil_append, splitLines, if_pos rfl, List.nil_append]
  | cons c front ih =>
      obtain ⟨hc, hfront⟩ := not_or.mp (mt List.mem_cons.mpr h)
      rw [List.cons_append, splitLines, if_neg (Ne.symm hc), ih hfront]
      rfl

theorem splitLines_of_not_mem {t : Text} (h : '\n' ∉ t) (hne : t ≠ []) : splitLines t = [t] := by
  induction t with
  | nil => exact absurd rfl hne
  | cons c t ih =>
      obtain ⟨hc, hrest⟩ := not_or.mp (mt List.mem_cons.mpr h)
      rw [splitLines, if_neg (Ne.symm hc)]
      cases t with
      | nil => rfl
      | cons d t => rw [ih hrest (List.cons_ne_nil d t)]

theorem lines_induction {motive : Text → Prop} (nil : motive [])
    (last : ∀ t, t ≠ [] → '\n' ∉ t → motive t)
    (line : ∀ front rest, '\n' ∉ front → motive rest → motive (front ++ '\n' :: rest))
    (t : Text) : motive t := by
  induction hlength : t.length using Nat.strongRecOn generalizing t with
  | ind n ih =>
      by_cases hfeed : '\n' ∈ t
      · obtain ⟨front, rest, rfl, hfront⟩ := List.eq_append_cons_of_mem hfeed
        rw [List.length_append, List.length_cons] at hlength
        exact line front rest hfront (ih rest.length (by omega) rest rfl)
      · by_cases hne : t = []
        · rw [hne]
          exact nil
        · exact last t hne hfeed

/-- A line has a line feed at its end or nowhere. -/
theorem exists_of_mem_splitLines {t : Text} {line : Line} (h : line ∈ splitLines t) :
    ∃ front, '\n' ∉ front ∧ (line = front ∨ line = front ++ ['\n']) := by
  induction t using lines_induction with
  | nil => cases h
  | last t hne hfeed =>
      rw [splitLines_of_not_mem hfeed hne] at h
      exact ⟨t, hfeed, Or.inl (List.mem_singleton.mp h)⟩
  | line front rest hfront ih =>
      rw [splitLines_append_lineFeed hfront] at h
      rcases List.mem_cons.mp h with rfl | h
      · exact ⟨front, hfront, Or.inr rfl⟩
      · exact ih h

/-! ### Lines of a text -/

theorem ne_nil_of_mem_splitLines {t : Text} {line : Line} (h : line ∈ splitLines t) :
    line ≠ [] := by
  induction t using lines_induction with
  | nil => cases h
  | last t hne hfeed =>
      rw [splitLines_of_not_mem hfeed hne] at h
      rwa [List.mem_singleton.mp h]
  | line front rest hfront ih =>
      rw [splitLines_append_lineFeed hfront] at h
      rcases List.mem_cons.mp h with rfl | h
      · exact List.append_ne_nil_of_right_ne_nil _ (List.cons_ne_nil _ _)
      · exact ih h

theorem splitLines_eq_cons {t : Text} {line : Line} {lines : List Line}
    (h : splitLines t = line :: lines) :
    (t = line ∧ lines = []) ∨
      ∃ rest, splitLines rest = lines ∧
        ∀ more, splitLines (line ++ more) = line :: splitLines more := by
  induction t using lines_induction with
  | nil => cases h
  | last t hne hfeed =>
      rw [splitLines_of_not_mem hfeed hne] at h
      obtain ⟨rfl, rfl⟩ := List.cons.inj h
      exact Or.inl ⟨rfl, rfl⟩
  | line front rest hfront =>
      rw [splitLines_append_lineFeed hfront] at h
      obtain ⟨rfl, rfl⟩ := List.cons.inj h
      refine Or.inr ⟨rest, rfl, fun more => ?_⟩
      rw [List.append_assoc, List.singleton_append, splitLines_append_lineFeed hfront]

/-- A text has a line feed at its end, or nothing that would need one. -/
def Text.IsEnded (t : Text) : Prop := t = [] ∨ t.getLast? = some '\n'

instance (t : Text) : Decidable t.IsEnded := inferInstanceAs (Decidable (_ ∨ _))

theorem Text.isEnded_append_lineFeed {front rest : Text} :
    IsEnded (front ++ '\n' :: rest) ↔ IsEnded rest := by
  cases rest with
  | nil => simp [IsEnded]
  | cons c rest => simp [IsEnded, List.getLast?_append]

/-- The lines of two texts follow each other if the first one ends its last line. -/
theorem splitLines_append {t : Text} (h : t.IsEnded) (more : Text) :
    splitLines (t ++ more) = splitLines t ++ splitLines more := by
  induction t using lines_induction with
  | nil => rfl
  | last t hne hfeed => exact absurd (List.mem_of_getLast? (h.resolve_left hne)) hfeed
  | line front rest hfront ih =>
      rw [List.append_assoc, List.cons_append, splitLines_append_lineFeed hfront,
        splitLines_append_lineFeed hfront, ih (Text.isEnded_append_lineFeed.mp h), List.cons_append]

/-- Lines of a text that are put together in their order stay lines. -/
theorem splitLines_flatten_of_sublist {t : Text} {lines : List Line}
    (h : lines.Sublist (splitLines t)) : splitLines lines.flatten = lines := by
  generalize hall : splitLines t = all at h
  induction h generalizing t with
  | slnil => rfl
  | cons line hsublist ih =>
      obtain ⟨-, rfl⟩ | ⟨rest, hrest, -⟩ := splitLines_eq_cons hall
      · rw [List.sublist_nil.mp hsublist]
        rfl
      · exact ih hrest
  | cons_cons line hsublist ih =>
      obtain ⟨rfl, rfl⟩ | ⟨rest, hrest, hmore⟩ := splitLines_eq_cons hall
      · rw [List.sublist_nil.mp hsublist]
        simpa using hall
      · rw [List.flatten_cons, hmore, ih hrest]

end SampleHarvest
