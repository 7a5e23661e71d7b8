import SampleHarvest.Proofs.Text.Expansion
import SampleHarvest.Proofs.Text.Lines
import SampleHarvest.Proofs.Text.Trim

/-!
# Line ends

Some systems end a line with a carriage return and a line feed. A text written in this way has the
same lines with other ends. A part without these two characters begins a line, or occurs in it, as it
does in the line without its end, and replacing such a part makes no difference to the line ends.
-/

namespace SampleHarvest

namespace Text

/-- The text with a carriage return before each line feed. -/
def withReturns (t : Text) : Text := t.flatMap fun c => if c = '\n' then ['\r', '\n'] else [c]

theorem withReturns_append (a b : Text) : withReturns (a ++ b) = withReturns a ++ withReturns b :=
  List.flatMap_append

theorem withReturns_lineFeed (t : Text) : withReturns ('\n' :: t) = '\r' :: '\n' :: withReturns t :=
  rfl

theorem withReturns_cons {c : Char} (hc : c ≠ '\n') (t : Text) :
    withReturns (c :: t) = c :: withReturns t := by
  rw [withReturns, List.flatMap_cons, if_neg hc]
  rfl

theorem withReturns_of_not_mem {t : Text} (h : '\n' ∉ t) : withReturns t = t := by
  induction t with
  | nil => rfl
  | cons c t ih =>
      obtain ⟨hc, ht⟩ := not_or.mp (mt List.mem_cons.mpr h)
      rw [withReturns_cons (Ne.symm hc), ih ht]

theorem withReturns_flatten (lines : List Line) :
    withReturns lines.flatten = (lines.map withReturns).flatten := by
  induction lines with
  | nil => rfl
  | cons line lines ih =>
      rw [List.flatten_cons, withReturns_append, ih, List.map_cons, List.flatten_cons]

theorem splitLines_withReturns (t : Text) :
    splitLines (withReturns t) = (splitLines t).map withReturns := by
  induction t using lines_induction with
  | nil => rfl
  | last t hne hfeed =>
      rw [withReturns_of_not_mem hfeed, splitLines_of_not_mem hfeed hne, List.map_singleton,
        withReturns_of_not_mem hfeed]
  | line front rest hfront ih =>
      have hreturn : '\n' ∉ front ++ ['\r'] := by simp [hfront]
      have hwhole : withReturns (front ++ '\n' :: rest) =
          (front ++ ['\r']) ++ '\n' :: withReturns rest := by
        rw [withReturns_append, withReturns_of_not_mem hfront, withReturns_lineFeed]
        simp
      have hline : withReturns (front ++ ['\n']) = front ++ ['\r'] ++ ['\n'] := by
        rw [withReturns_append, withReturns_of_not_mem hfront]
        simp [withReturns]
      rw [hwhole, splitLines_append_lineFeed hreturn, splitLines_append_lineFeed hfront, ih,
        List.map_cons, hline]

/-! ### Parts of a line -/

/-- A part is apart from line ends if it has neither of their characters. -/
def IsWithinLines (part : Text) : Prop := '\n' ∉ part ∧ '\r' ∉ part

instance (part : Text) : Decidable (IsWithinLines part) := inferInstanceAs (Decidable (_ ∧ _))

/-- Nothing but carriage returns and line feeds. -/
def IsLineEnd (t : Text) : Prop := ∀ c ∈ t, c = '\n' ∨ c = '\r'

variable {part front lineEnd t r : Text}

theorem IsLineEnd.isBlanks (h : IsLineEnd lineEnd) : IsBlanks lineEnd := by
  intro c hc
  rcases h c hc with rfl | rfl <;> rfl

theorem IsWithinLines.not_mem (hpart : IsWithinLines part) (h : IsLineEnd lineEnd) :
    ∀ c ∈ lineEnd, c ∉ part := by
  intro c hc
  rcases h c hc with rfl | rfl
  · exact hpart.1
  · exact hpart.2

theorem IsWithinLines.infix_append_iff (hpart : IsWithinLines part) (hne : part ≠ [])
    (h : IsLineEnd lineEnd) : part <:+: front ++ lineEnd ↔ part <:+: front := by
  have hnot : ¬part <:+: lineEnd := by
    intro hholds
    obtain ⟨c, rest, rfl⟩ := List.exists_cons_of_ne_nil hne
    exact hpart.not_mem h c (hholds.subset List.mem_cons_self) List.mem_cons_self
  have hapart : EndsApart part lineEnd :=
    endsApart_of_head? fun c hc => hpart.not_mem h c (List.mem_of_mem_head? hc)
  rw [infix_append_iff_of_endsApart (Or.inr hapart)]
  exact or_iff_left hnot

theorem IsWithinLines.prefix_append_iff (hpart : IsWithinLines part) (h : IsLineEnd lineEnd) :
    part <+: front ++ lineEnd ↔ part <+: front := by
  refine ⟨fun hleads => ?_, fun hleads => hleads.trans (List.prefix_append front lineEnd)⟩
  rcases List.prefix_or_prefix_of_prefix hleads (List.prefix_append front lineEnd) with
    hwithin | ⟨rest, rfl⟩
  · exact hwithin
  · -- What the part has beyond the front would be the beginning of the line end.
    have hrest := (List.prefix_append_right_inj front).mp hleads
    cases rest with
    | nil => exact (List.append_nil front).symm ▸ List.prefix_rfl
    | cons c rest =>
        have hc := hpart.not_mem h c (hrest.subset List.mem_cons_self)
        exact absurd (List.mem_append_right front List.mem_cons_self) hc

theorem contains_iff : contains t part ↔ part <:+: t := by
  induction t with
  | nil => rw [contains, List.isEmpty_iff, List.infix_nil]
  | cons c t ih =>
      rw [contains, Bool.or_eq_true, ih, startsWith, List.isPrefixOf_iff_prefix,
        List.infix_cons_iff]

/-- A text begins with a part whatever line end comes behind. -/
theorem IsWithinLines.startsWith_append (hpart : IsWithinLines part) (h : IsLineEnd lineEnd) :
    startsWith (front ++ lineEnd) part = startsWith front part := by
  rw [Bool.eq_iff_iff, startsWith, startsWith, List.isPrefixOf_iff_prefix,
    List.isPrefixOf_iff_prefix, hpart.prefix_append_iff h]

theorem IsWithinLines.contains_append (hpart : IsWithinLines part) (hne : part ≠ [])
    (h : IsLineEnd lineEnd) : contains (front ++ lineEnd) part = contains front part := by
  rw [Bool.eq_iff_iff, contains_iff, contains_iff, hpart.infix_append_iff hne h]

/-! ### Replacement -/

theorem IsWithinLines.prefix_withReturns_iff (hpart : IsWithinLines part) :
    part <+: withReturns t ↔ part <+: t := by
  induction t generalizing part with
  | nil => rfl
  | cons c t ih =>
      cases part with
      | nil => exact iff_of_true List.nil_prefix List.nil_prefix
      | cons d part =>
          have hrest : IsWithinLines part :=
            ⟨mt (List.mem_cons_of_mem d) hpart.1, mt (List.mem_cons_of_mem d) hpart.2⟩
          by_cases hc : c = '\n'
          · subst hc
            rw [withReturns_lineFeed, List.cons_prefix_cons, List.cons_prefix_cons]
            constructor
            · rintro ⟨rfl, -⟩
              exact absurd List.mem_cons_self hpart.2
            · rintro ⟨rfl, -⟩
              exact absurd List.mem_cons_self hpart.1
          · rw [withReturns_cons hc, List.cons_prefix_cons, List.cons_prefix_cons, ih hrest]

theorem Expands.withReturns {pattern value : Text} (h : Expands [(pattern, value)] t r)
    (hne : pattern ≠ []) (hpattern : IsWithinLines pattern) (hvalue : '\n' ∉ value) :
    Expands [(pattern, value)] (withReturns t) (withReturns r) := by
  induction h with
  | nil => exact Expands.nil
  | placeholder hrow _ ih =>
      obtain rfl := List.mem_singleton.mp hrow
      rw [withReturns_append, withReturns_append, withReturns_of_not_mem hpattern.1,
        withReturns_of_not_mem hvalue]
      exact Expands.placeholder hrow ih
  | @plain c t r hplain _ ih =>
      have hnone : ¬pattern <+: c :: t := hplain _ (List.mem_singleton_self _)
      by_cases hc : c = '\n'
      · subst hc
        rw [withReturns_lineFeed, withReturns_lineFeed]
        -- The pattern begins with neither character of the line end.
        obtain ⟨d, part, rfl⟩ := List.exists_cons_of_ne_nil hne
        apply Expands.plain
        · intro row hrow hleads
          rw [List.mem_singleton.mp hrow, List.cons_prefix_cons] at hleads
          exact hpattern.2 (hleads.1 ▸ List.mem_cons_self)
        · apply Expands.plain _ ih
          intro row hrow hleads
          rw [List.mem_singleton.mp hrow, List.cons_prefix_cons] at hleads
          exact hpattern.1 (hleads.1 ▸ List.mem_cons_self)
      · rw [withReturns_cons hc, withReturns_cons hc]
        apply Expands.plain _ ih
        intro row hrow hleads
        rw [List.mem_singleton.mp hrow, ← withReturns_cons hc,
          hpattern.prefix_withReturns_iff] at hleads
        exact hnone hleads

/-- Replacing a part that lies within lines makes no difference to the line ends. -/
theorem replaceAll_withReturns {pattern value : Text} (hpattern : IsWithinLines pattern)
    (hvalue : '\n' ∉ value) (t : Text) :
    replaceAll pattern value (withReturns t) = withReturns (replaceAll pattern value t) := by
  by_cases hne : pattern = []
  · rw [hne]
    rfl
  · rw [← expands_replaceAll_iff hne]
    exact (expands_replaceAll hne value t).withReturns hne hpattern hvalue

end Text

end SampleHarvest
