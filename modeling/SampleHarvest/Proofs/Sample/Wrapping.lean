import SampleHarvest.Proofs.Dialect.Lines
import SampleHarvest.Sample.Marker

/-!
# Wrapped references

A marker may leave its own line empty and wrap its reference onto the comment lines below, each of
which has a leader, blanks and a piece of the reference. However it is cut into pieces, and whatever
a piece begins with, the reference that is read is the one of a marker that names it on its own line.
-/

namespace SampleHarvest

open Text

namespace Dialect

theorem leaders_solid (dialect : Dialect) : ∀ leader ∈ dialect.leaders, IsSolid leader := by
  cases dialect <;> decide

theorem markerLead_solid (dialect : Dialect) : IsSolid dialect.rules.markerLead := by
  cases dialect <;> decide

end Dialect

/-- A comment line that carries on a reference. -/
structure WrappedLine (dialect : Dialect) where
  indent : Text
  leader : Text
  gap : Text
  /-- The part of the reference that stands on the line. -/
  piece : Text
  trail : Text
  indent_blank : IsBlanks indent := by decide
  leader_mem : leader ∈ dialect.leaders := by decide
  gap_ne_nil : gap ≠ [] := by decide
  gap_blank : IsBlanks gap := by decide
  piece_solid : IsSolid piece := by decide
  trail_blank : IsBlanks trail := by decide

namespace WrappedLine

variable {dialect : Dialect} (w : WrappedLine dialect)

def line : Line := w.indent ++ (w.leader ++ w.gap ++ w.piece) ++ w.trail

def reference (wraps : List (WrappedLine dialect)) : Text := (wraps.map piece).flatten

theorem reference_solid {wraps : List (WrappedLine dialect)} (hne : wraps ≠ []) :
    IsSolid (reference wraps) := by
  apply IsSolid.flatten
  · exact mt List.map_eq_nil_iff.mp hne
  · intro part hpart
    obtain ⟨w, -, rfl⟩ := List.mem_map.mp hpart
    exact w.piece_solid

theorem trim_line : trim w.line = w.leader ++ w.gap ++ w.piece :=
  ((dialect.leaders_solid w.leader w.leader_mem).append_append w.gap w.piece_solid).trim_between
    w.indent_blank w.trail_blank

theorem leader_cases : w.leader = "//" ∨ w.leader = "*" := by
  have hmem := w.leader_mem
  cases dialect with
  | go => exact Or.inl (List.mem_singleton.mp hmem)
  | javaScript | java => exact (List.mem_pair.mp hmem).symm

/-- The blank behind the leader keeps an asterisk from closing the comment with a slash that the
piece begins with. -/
theorem not_startsWith_close : startsWith (w.leader ++ w.gap ++ w.piece) "*/" = false := by
  obtain ⟨c, gap, hgap⟩ := List.exists_cons_of_ne_nil w.gap_ne_nil
  have hc : c ≠ '/' := by
    rintro rfl
    have hblank := w.gap_blank '/' (by rw [hgap]; exact List.mem_cons_self)
    exact absurd hblank (by decide)
  rw [hgap]
  rcases w.leader_cases with hleader | hleader <;> rw [hleader]
  · rfl
  · show ('*' == '*' && ('/' == c && true)) = false
    simp [hc.symm]

theorem endsReference_line : dialect.rules.endsReference w.line = false := by
  have hcomment : dialect.rules.isComment w.line :=
    Dialect.isComment_of_trim w.leader_mem (w.trim_line.trans (List.append_assoc _ _ _))
  have hne : w.leader ++ w.gap ++ w.piece ≠ [] :=
    List.append_ne_nil_of_right_ne_nil _ w.piece_solid.ne_nil
  simp only [DialectRules.endsReference, w.trim_line, w.not_startsWith_close, hcomment,
    List.isEmpty_eq_false_iff.mpr hne, Bool.not_true, Bool.or_self]

/-- One leader is taken off, so a piece may begin with what is a leader itself. -/
theorem commentText_line : w.line.commentText = w.piece := by
  have hpiece : trim (w.gap ++ w.piece) = w.piece := by
    rw [trim_blanks_append w.gap_blank, w.piece_solid.trim_eq]
  have htrim : trim w.line = w.leader ++ (w.gap ++ w.piece) :=
    w.trim_line.trans (List.append_assoc _ _ _)
  have hbehind : after? (trim w.line) w.leader = some (w.gap ++ w.piece) :=
    after?_eq_some_iff.mpr htrim
  rw [Line.commentText]
  rcases w.leader_cases with hleader | hleader <;> rw [hleader] at hbehind htrim
  · simp only [hbehind, hpiece]
  · have hslashes : after? (trim w.line) "//" = none := by
      rw [htrim]
      rfl
    simp only [hslashes, dropLead, hbehind, Option.getD_some, hpiece]

/-- The pieces are read one after the other, and reading goes on below them. -/
theorem wrappedReference_append (wraps : List (WrappedLine dialect)) (below : List Line) :
    dialect.rules.wrappedReference (wraps.map line ++ below) =
      reference wraps ++ dialect.rules.wrappedReference below := by
  induction wraps with
  | nil => rfl
  | cons w wraps ih =>
      rw [List.map_cons, List.cons_append, DialectRules.wrappedReference, w.endsReference_line, ih,
        w.commentText_line]
      exact (List.append_assoc _ _ _).symm

end WrappedLine

namespace DialectRules

variable {rules : DialectRules}

theorem wrappedReference_eq_nil {below : List Line}
    (hbelow : ∀ next ∈ below.head?, rules.endsReference next) :
    rules.wrappedReference below = [] := by
  cases below with
  | nil => rfl
  | cons next below => rw [wrappedReference, hbelow next rfl, if_pos rfl]

/-- A marker that names its reference needs nothing from the lines below. -/
theorem reference?_of_markerValue? {line : Line} {reference : Text} (hne : reference ≠ [])
    (hvalue : rules.markerValue? line = some reference) (below : List Line) :
    rules.reference? line below = some reference := by
  obtain ⟨c, rest, rfl⟩ := List.exists_cons_of_ne_nil hne
  rw [reference?, hvalue]

theorem reference?_of_wrapped {marker : Line} {below : List Line} {reference : Text}
    (hmarker : rules.markerValue? marker = some []) (hne : reference ≠ [])
    (hwrapped : rules.wrappedReference below = reference) :
    rules.reference? marker below = some reference := by
  obtain ⟨c, rest, rfl⟩ := List.exists_cons_of_ne_nil hne
  rw [reference?, hmarker]
  dsimp only
  rw [hwrapped]

theorem markerValue?_inline {reference indent gap trail : Text} (hsolid : IsSolid reference)
    (hlead : IsSolid rules.markerLead) (hindent : IsBlanks indent) (hgap : IsBlanks gap)
    (htrail : IsBlanks trail) :
    rules.markerValue? (indent ++ (rules.markerLead ++ gap ++ reference) ++ trail) =
      some reference := by
  have hafter : after? (rules.markerLead ++ gap ++ reference) rules.markerLead =
      some (gap ++ reference) := after?_eq_some_iff.mpr (List.append_assoc _ _ _)
  rw [markerValue?, (hlead.append_append gap hsolid).trim_between hindent htrail, hafter,
    Option.map_some, trim_blanks_append hgap, hsolid.trim_eq]

end DialectRules

/-- **A wrapped reference is read as an inline one.** Below a marker without a value, the pieces on
the comment lines make up the reference if the text ends behind them or goes on with a blank line,
with the end of the comment or with a line that is no comment; what comes after that does not matter.
It is the reference of a marker that names it on its own line. -/
theorem DialectRules.referenceAt?_wrapped_eq_inline (dialect : Dialect) (above : List Line)
    {marker : Line} (hmarker : dialect.rules.markerValue? marker = some [])
    {wraps : List (WrappedLine dialect)} (hwraps : wraps ≠ []) {below : List Line}
    (hbelow : ∀ next ∈ below.head?,
      next.isBlank ∨ startsWith (trim next) "*/" ∨ ¬dialect.rules.isComment next)
    {indent gap trail : Text} (hindent : IsBlanks indent) (hgap : IsBlanks gap)
    (htrail : IsBlanks trail) (others : List Line) :
    let reference := WrappedLine.reference wraps
    let wrapped := marker :: (wraps.map WrappedLine.line ++ below)
    let inline := indent ++ (dialect.rules.markerLead ++ gap ++ reference) ++ trail
    dialect.rules.referenceAt? (above ++ wrapped) above.length = some reference ∧
      dialect.rules.referenceAt? (above ++ inline :: others) above.length = some reference := by
  intro reference wrapped inline
  have hsolid : IsSolid reference := WrappedLine.reference_solid hwraps
  have hends : ∀ next ∈ below.head?, dialect.rules.endsReference next := by
    intro next hnext
    simpa [endsReference, Line.isBlank, or_assoc] using hbelow next hnext
  have hread : dialect.rules.wrappedReference (wraps.map WrappedLine.line ++ below) = reference := by
    rw [WrappedLine.wrappedReference_append, wrappedReference_eq_nil hends, List.append_nil]
  have hvalue : dialect.rules.markerValue? inline = some reference :=
    markerValue?_inline hsolid dialect.markerLead_solid hindent hgap htrail
  constructor
  · rw [referenceAt?, List.drop_left]
    exact reference?_of_wrapped hmarker hsolid.ne_nil hread
  · rw [referenceAt?, List.drop_left]
    exact reference?_of_markerValue? hsolid.ne_nil hvalue others

/-- Pieces that begin with an asterisk, with two slashes and with one slash. -/
theorem DialectRules.referenceAt?_wrapped_eq_inline_java :
    let rules := Dialect.java.rules
    let wraps : List (WrappedLine Dialect.java) :=
      [{ indent := "  ", leader := "*", gap := " ", piece := "*a", trail := "\r\n" },
        { indent := "", leader := "//", gap := "\t", piece := "//b", trail := " \n" },
        { indent := " ", leader := "*", gap := "  ", piece := "/c", trail := "\n" }]
    let lines : List Line := ["/*\n", " * x-ms-original-file: \r\n", "  * *a\r\n", "//\t//b \n",
      " *  /c\n", "*/ d\n", " * e\n"]
    wraps.map WrappedLine.line = ["  * *a\r\n", "//\t//b \n", " *  /c\n"] ∧
      rules.markerValue? " * x-ms-original-file: \r\n" = some [] ∧
      startsWith (trim "*/ d\n") "*/" ∧
      rules.referenceAt? lines 1 = some "*a//b/c" ∧
      rules.referenceAt? ["/*\n", "\t* x-ms-original-file:*a//b/c\n"] 1 = some "*a//b/c" := by
  intro rules wraps lines
  have hmarker : rules.markerValue? " * x-ms-original-file: \r\n" = some [] := by decide +kernel
  have hclose : startsWith (trim "*/ d\n") "*/" := by decide
  have hbelow : ∀ next ∈ ([("*/ d\n" : Text), " * e\n"] : List Line).head?,
      next.isBlank ∨ startsWith (trim next) "*/" ∨ ¬rules.isComment next := by
    rintro next ⟨rfl⟩
    exact Or.inr (Or.inl hclose)
  obtain ⟨hwrapped, hinline⟩ := referenceAt?_wrapped_eq_inline Dialect.java ["/*\n"] hmarker
    (List.cons_ne_nil _ _ : wraps ≠ []) hbelow (by decide : IsBlanks "\t")
    (by decide : IsBlanks []) (by decide : IsBlanks "\n") []
  exact ⟨rfl, hmarker, hclose, hwrapped, hinline⟩

end SampleHarvest
