import SampleHarvest.Dialect.Rules
import SampleHarvest.Proofs.Text.Trim

/-!
# Dialects tell lines apart

In every dialect a marker is a comment line, and a comment line neither opens a unit nor ends the
file header. The first visible character decides it: a comment begins with a slash or an asterisk,
and neither an opening line nor a line that ends a header does.
-/

namespace SampleHarvest

/-- What the tests of a dialect owe each other. -/
structure DialectRules.TellsLinesApart (rules : DialectRules) : Prop where
  isComment_of_isMarker {line : Line} : rules.isMarker line → rules.isComment line
  not_isUnitStart {line : Line} : rules.isComment line → ¬rules.isUnitStart line
  not_isHeaderEnd {line : Line} : rules.isComment line → ¬rules.isHeaderEnd line

namespace Line

variable {line : Line}

theorem not_isSlashComment {c : Char} (hhead : (Text.trim line).head? = some c) (hslash : c ≠ '/') :
    ¬line.isSlashComment := by
  intro h
  have hc : (Text.trim line).head? = some '/' := Text.head?_of_startsWith h
  exact hslash (Option.some.inj (hhead.symm.trans hc))

/-- A line whose first visible character is neither a slash nor an asterisk is no comment. -/
theorem not_isBlockOrSlashComment {c : Char} (hhead : (Text.trim line).head? = some c)
    (hstar : c ≠ '*') (hslash : c ≠ '/') : ¬line.isBlockOrSlashComment := by
  intro h
  simp only [isBlockOrSlashComment, Bool.or_eq_true] at h
  obtain (h | h) | h := h
  · exact hstar (Option.some.inj (hhead.symm.trans (Text.head?_of_startsWith h)))
  · exact hslash (Option.some.inj (hhead.symm.trans (Text.head?_of_startsWith h)))
  · exact not_isSlashComment hhead hslash h

end Line

theorem DialectRules.trim_of_isMarker {rules : DialectRules} {line : Line}
    (h : rules.isMarker line) : ∃ rest, Text.trim line = rules.markerLead ++ rest := by
  obtain ⟨value, hvalue⟩ := Option.isSome_iff_exists.mp h
  obtain ⟨rest, hrest, -⟩ := Option.map_eq_some_iff.mp hvalue
  exact ⟨rest, Text.after?_eq_some_iff.mp hrest⟩

namespace Dialect

/-- How a comment line begins on which there is something to read. -/
def leaders : Dialect → List Text
  | go => ["//"]
  | javaScript | java => ["*", "//"]

theorem isComment_of_trim {dialect : Dialect} {line : Line} {leader rest : Text}
    (hleader : leader ∈ dialect.leaders) (hline : Text.trim line = leader ++ rest) :
    dialect.rules.isComment line := by
  cases dialect with
  | go =>
      obtain rfl := List.mem_singleton.mp hleader
      show Text.startsWith (Text.trim line) "//"
      rw [hline]
      rfl
  | javaScript | java =>
      show Line.isBlockOrSlashComment line
      rw [Line.isBlockOrSlashComment, hline]
      rcases List.mem_pair.mp hleader with rfl | rfl <;> rfl

theorem exists_leader_markerLead (dialect : Dialect) :
    ∃ leader ∈ dialect.leaders, leader <+: dialect.rules.markerLead := by
  cases dialect <;> decide

theorem isComment_of_isMarker {dialect : Dialect} {line : Line}
    (h : dialect.rules.isMarker line) : dialect.rules.isComment line := by
  obtain ⟨leader, hleader, rest, hlead⟩ := dialect.exists_leader_markerLead
  obtain ⟨value, hvalue⟩ := DialectRules.trim_of_isMarker h
  apply isComment_of_trim hleader
  rw [hvalue, ← hlead, List.append_assoc]

end Dialect

/-- Every dialect tells markers, comments, opening lines and the ends of headers apart. -/
theorem Dialect.tellsLinesApart (dialect : Dialect) : dialect.rules.TellsLinesApart := by
  cases dialect with
  | go =>
      refine ⟨isComment_of_isMarker, ?_, ?_⟩
      · intro line hcomment hstart
        have hfunc := Text.head?_trim_of_startsWith [] hstart (by decide) rfl
        exact Line.not_isSlashComment hfunc (by decide) hcomment
      · intro line hcomment hend
        have hpackage := Text.head?_trim_of_startsWith [] hend (by decide) rfl
        exact Line.not_isSlashComment hpackage (by decide) hcomment
  | javaScript =>
      refine ⟨isComment_of_isMarker, ?_, ?_⟩
      · intro line hcomment hstart
        have hasync := Text.head?_trim_of_startsWith [] hstart (by decide) rfl
        exact Line.not_isBlockOrSlashComment hasync (by decide) (by decide) hcomment
      · intro line hcomment hend
        have hplain : (!Line.isBlockOrSlashComment line) = true :=
          ((Bool.and_eq_true _ _).mp hend).2
        have hblock : Line.isBlockOrSlashComment line = true := hcomment
        simp [hblock] at hplain
  | java =>
      refine ⟨isComment_of_isMarker, ?_, ?_⟩
      · intro line hcomment hstart
        have hindent : Text.IsBlanks (List.replicate 4 ' ') := by decide
        have hpublic := Text.head?_trim_of_startsWith (List.replicate 4 ' ') hstart hindent rfl
        exact Line.not_isBlockOrSlashComment hpublic (by decide) (by decide) hcomment
      · intro line hcomment hend
        have hpackage := Text.head?_trim_of_startsWith [] hend (by decide) rfl
        exact Line.not_isBlockOrSlashComment hpackage (by decide) (by decide) hcomment

end SampleHarvest
