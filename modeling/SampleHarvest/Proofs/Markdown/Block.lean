import SampleHarvest.Markdown
import SampleHarvest.Proofs.Text.Lines

/-!
# The block of a document

A source is written into its block as it is, so a line of it may look like the line that closes the
block. A reader of the document takes the lines up to the first one that does. This is the last line
of the document unless a line of the source comes before it, and only then does the reader get the
whole source.

A line feed is added to the source if its last line has none. Nothing else is changed, so sources
with one document differ in this line feed only.
-/

namespace SampleHarvest

/-- A fence that can close a block: three backticks or more, behind three spaces at most and with
nothing but blanks behind them. -/
def IsFence (t : Text) : Prop :=
  ∃ spaces ticks blanks, spaces ≤ 3 ∧ 3 ≤ ticks ∧
    (∀ c ∈ blanks, c = ' ' ∨ c = '\t' ∨ c = '\r') ∧
    t = List.replicate spaces ' ' ++ List.replicate ticks '`' ++ blanks

def IsClosing (line : Line) : Prop :=
  ∃ fence ending, IsFence fence ∧ (ending = [] ∨ ending = ['\n']) ∧ line = fence ++ ending

/-- What a reader takes for the block, and what is left behind the line that closes it. -/
structure IsBlock (lines block rest : List Line) : Prop where
  parts : ∃ closing, IsClosing closing ∧ lines = block ++ closing :: rest
  inside : ∀ line ∈ block, ¬IsClosing line

/-- A source with a line feed at its end. -/
def ended (code : Text) : Text := if code.IsEnded then code else code ++ ['\n']

/-- The line that opens the block of a document. -/
def openingFence (rules : DialectRules) : Line := "```" ++ rules.fenceTag ++ "\n"

def closingFence : Line := "```\n"

variable {code line : Text} {lines block rest : List Line}

/-! ### Lines that close a block -/

theorem IsFence.lineFeed_not_mem (h : IsFence line) : '\n' ∉ line := by
  obtain ⟨spaces, ticks, blanks, -, -, hblanks, rfl⟩ := h
  intro hmem
  simp only [List.mem_append, List.mem_replicate] at hmem
  obtain (⟨-, heq⟩ | ⟨-, heq⟩) | hmem := hmem
  · exact absurd heq (by decide)
  · exact absurd heq (by decide)
  · exact absurd (hblanks _ hmem) (by decide)

theorem isClosing_iff (hline : '\n' ∉ line) : IsClosing line ↔ IsFence line := by
  constructor
  · rintro ⟨fence, ending, hfence, rfl | rfl, rfl⟩
    · rwa [List.append_nil]
    · exact absurd (List.mem_append_right _ (List.mem_singleton_self _)) hline
  · intro h
    exact ⟨line, [], h, Or.inl rfl, (List.append_nil _).symm⟩

theorem isClosing_append_lineFeed : IsClosing (line ++ ['\n']) ↔ IsFence line := by
  constructor
  · rintro ⟨fence, ending, hfence, rfl | rfl, heq⟩
    · -- The line feed would have to stand in the fence.
      rw [List.append_nil] at heq
      have hmem : '\n' ∈ line ++ ['\n'] := List.mem_append_right _ (List.mem_singleton_self _)
      exact absurd (heq ▸ hmem) hfence.lineFeed_not_mem
    · rwa [List.append_cancel_right heq]
  · exact fun h => ⟨line, ['\n'], h, Or.inr rfl, rfl⟩

theorem closingFence_isClosing : IsClosing closingFence := by
  have hfence : IsFence "```" := ⟨0, 3, [], by decide, Nat.le_refl 3, nofun, rfl⟩
  exact isClosing_append_lineFeed.mpr hfence

/-- Blanks around a fence and any number of its backticks make no difference. -/
example : IsClosing "  ````\t\n" := by
  have hfence : IsFence "  ````\t" := ⟨2, 4, ['\t'], by decide, by decide, by simp, rfl⟩
  exact isClosing_append_lineFeed.mpr hfence

theorem exists_isBlock (h : ∃ line ∈ lines, IsClosing line) :
    ∃ block rest, IsBlock lines block rest := by
  induction lines with
  | nil => simp at h
  | cons first lines ih =>
      by_cases hfirst : IsClosing first
      · exact ⟨[], lines, ⟨first, hfirst, rfl⟩, nofun⟩
      · obtain ⟨line, hmem, hline⟩ := h
        have hmore := (List.mem_cons.mp hmem).resolve_left fun heq => hfirst (heq ▸ hline)
        obtain ⟨block, rest, ⟨closing, hclosing, rfl⟩, hinside⟩ := ih ⟨line, hmore, hline⟩
        exact ⟨first :: block, rest, ⟨closing, hclosing, rfl⟩,
          List.forall_mem_cons.mpr ⟨hfirst, hinside⟩⟩

/-- A reader gets as far as the last line, which closes the block, if no other line does. -/
theorem IsBlock.rest_eq_nil_iff {closing : Line} (h : IsBlock (lines ++ [closing]) block rest) :
    rest = [] ↔ ∀ line ∈ lines, ¬IsClosing line := by
  obtain ⟨⟨fence, hfence, heq⟩, hinside⟩ := h
  constructor
  · rintro rfl
    obtain ⟨rfl, -⟩ := List.append_inj' heq rfl
    exact hinside
  · intro hlines
    rcases List.eq_nil_or_concat rest with rfl | ⟨front, last, rfl⟩
    · rfl
    · -- If more is left, the reader stopped at one of the lines before the last.
      rw [List.concat_eq_append, ← List.cons_append, ← List.append_assoc] at heq
      obtain ⟨rfl, -⟩ := List.append_inj' heq rfl
      exact absurd hfence (hlines fence (List.mem_append_right _ List.mem_cons_self))

/-! ### The added line feed -/

theorem append_lineEndFor (code : Text) : code ++ Text.lineEndFor code = ended code := by
  have hsuffix : Text.endsWith code "\n" ↔ code.getLast? = some '\n' := by
    rw [Text.endsWith, List.isSuffixOf_iff_suffix, List.getLast?_eq_some_iff]
    exact exists_congr fun _ => eq_comm
  have hends : (code.isEmpty || Text.endsWith code "\n") = true ↔ code.IsEnded := by
    rw [Bool.or_eq_true, List.isEmpty_iff, hsuffix, Text.IsEnded]
  unfold Text.lineEndFor ended
  by_cases h : code.IsEnded
  · rw [if_pos (hends.mpr h), if_pos h, List.append_nil]
  · rw [if_neg (mt hends.mp h), if_neg h]
    rfl

theorem ended_isEnded (code : Text) : (ended code).IsEnded := by
  unfold ended
  split_ifs with h
  · exact h
  · exact Or.inr (List.getLast?_concat)

theorem ended_append_lineFeed (front rest : Text) :
    ended (front ++ '\n' :: rest) = front ++ '\n' :: ended rest := by
  unfold ended
  by_cases h : rest.IsEnded
  · rw [if_pos (Text.isEnded_append_lineFeed.mpr h), if_pos h]
  · rw [if_neg (mt Text.isEnded_append_lineFeed.mp h), if_neg h, List.append_assoc]
    rfl

/-- The added line feed makes no difference to what closes a block. -/
theorem forall_ended_iff :
    (∀ line ∈ splitLines (ended code), ¬IsClosing line) ↔
      ∀ line ∈ splitLines code, ¬IsClosing line := by
  induction code using lines_induction with
  | nil => rfl
  | last t hne hfeed =>
      have hopen : ¬Text.IsEnded t := fun h => hfeed (List.mem_of_getLast? (h.resolve_left hne))
      rw [ended, if_neg hopen, splitLines_append_lineFeed hfeed, splitLines_of_not_mem hfeed hne,
        splitLines, List.forall_mem_singleton, List.forall_mem_singleton,
        isClosing_append_lineFeed, isClosing_iff hfeed]
  | line front rest hfront ih =>
      rw [ended_append_lineFeed, splitLines_append_lineFeed hfront,
        splitLines_append_lineFeed hfront, List.forall_mem_cons, List.forall_mem_cons, ih]

/-! ### Documents -/

theorem renderDocument_eq (sentence : Text) (rules : DialectRules) (code : Text) :
    renderDocument sentence rules code =
      (sentence ++ "\n\n") ++ (openingFence rules ++ (ended code ++ closingFence)) := by
  rw [← append_lineEndFor]
  simp [renderDocument, openingFence, closingFence]

/-- The lines of a document: those of the sentence, the opening fence, those of the source and the
closing fence. -/
theorem splitLines_renderDocument (sentence : Text) (dialect : Dialect) (code : Text) :
    splitLines (renderDocument sentence dialect.rules code) =
      splitLines (sentence ++ "\n\n") ++
        openingFence dialect.rules :: (splitLines (ended code) ++ [closingFence]) := by
  have hsentence : Text.IsEnded (sentence ++ "\n\n") :=
    Text.isEnded_append_lineFeed.mpr (Or.inr rfl)
  have hopening : '\n' ∉ "```" ++ dialect.rules.fenceTag := by
    cases dialect <;> decide
  have hfence (more : Text) : openingFence dialect.rules ++ more =
      ("```" ++ dialect.rules.fenceTag) ++ '\n' :: more := List.append_assoc _ _ _
  have hclosing : splitLines closingFence = [closingFence] := rfl
  rw [renderDocument_eq, splitLines_append hsentence, hfence, splitLines_append_lineFeed hopening,
    splitLines_append (ended_isEnded code), hclosing]
  rfl

/-- **Blocks.** Behind the opening fence a reader always finds a block. Nothing is left behind the
line that closes it exactly if no line of the source closes a block, and then the block is the
source, with a line feed at its end. Two sources have one document exactly if they are the same with
a line feed at their ends. -/
theorem renderDocument_delimits (sentence : Text) (dialect : Dialect) :
    (∀ code, ∃ above below,
      splitLines (renderDocument sentence dialect.rules code) =
        above ++ openingFence dialect.rules :: below ∧
      above.flatten = sentence ++ "\n\n" ∧
      (∃ block rest, IsBlock below block rest) ∧
      ∀ block rest, IsBlock below block rest →
        (rest = [] ↔ ∀ line ∈ splitLines code, ¬IsClosing line) ∧
        (rest = [] → block = splitLines (ended code) ∧ block.flatten = ended code)) ∧
    ∀ a b, renderDocument sentence dialect.rules a = renderDocument sentence dialect.rules b ↔
      ended a = ended b := by
  constructor
  · intro code
    refine ⟨_, _, splitLines_renderDocument sentence dialect code, flatten_splitLines _,
      exists_isBlock ⟨closingFence, List.mem_append_right _ (List.mem_singleton_self _),
        closingFence_isClosing⟩, fun block rest h => ⟨?_, ?_⟩⟩
    · rw [h.rest_eq_nil_iff, forall_ended_iff]
    · rintro rfl
      obtain ⟨⟨closing, -, heq⟩, -⟩ := h
      obtain ⟨rfl, -⟩ := List.append_inj' heq rfl
      exact ⟨rfl, flatten_splitLines _⟩
  · intro a b
    rw [renderDocument_eq, renderDocument_eq, List.append_cancel_left_eq,
      List.append_cancel_left_eq, List.append_cancel_right_eq]

end SampleHarvest
