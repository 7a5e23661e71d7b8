import SampleHarvest.Text.Basic

/-!
# Lines

A text is cut after every line feed, and each line keeps the line feed that ends it. A last line
without a line feed is a line too, and the empty text has none.

Putting the lines one after the other gives the text back.
-/

namespace SampleHarvest

/-- A stretch of text with at most one line feed, at its end. -/
abbrev Line := Text

def splitLines : Text → List Line
  | [] => []
  | c :: t =>
    if c = '\n' then [c] :: splitLines t
    else
      match splitLines t with
      | [] => [[c]]
      | line :: lines => (c :: line) :: lines

/-- Cutting a text into lines loses nothing. -/
theorem flatten_splitLines (t : Text) : (splitLines t).flatten = t := by
  induction t with
  | nil => rfl
  | cons c t ih =>
    by_cases h : c = '\n'
    · simp [splitLines, h, ih]
    · cases hs : splitLines t with
      | nil => simp [splitLines, h, hs] at ih ⊢; exact ih
      | cons line lines => simp [splitLines, h, hs] at ih ⊢; exact ih

end SampleHarvest
