import SampleHarvest.Proofs.Path.Join
import SampleHarvest.Proofs.Text.Expansion
import SampleHarvest.Validation.Program

/-!
# Arguments of validation programs

The placeholder for the candidate is replaced before the one for the scratch folder, so the path of
the candidate is looked through for the second placeholder too. Nothing else of an argument is looked
at twice: a path begins with a slash and ends with an extension, and the placeholder has none of these
characters.

So the arguments are those of a single pass exactly if no argument names the candidate or its path
has no placeholder in it. The stem of a candidate comes from a sample and may have one.
-/

namespace SampleHarvest

theorem Path.suffix_join (base rest : Path) : rest <:+ join base rest := by
  rw [join]
  split_ifs
  · exact List.suffix_rfl
  · exact List.suffix_append _ _
  · exact List.suffix_append _ _

namespace Program

open Text

variable {folder : Path}

/-- An argument with both placeholders replaced in one pass. -/
def fillInOnce (folder : Path) (candidate : Candidate) (argument : Text) : Text :=
  expand [(filePlaceholder, scratchFile folder candidate), (folderPlaceholder, folder)] argument

theorem unambiguous_placeholders : Unambiguous [filePlaceholder, folderPlaceholder] := by decide

theorem filePlaceholder_apart :
    EndsApart folderPlaceholder filePlaceholder ∧ ¬filePlaceholder <:+: folderPlaceholder := by
  decide

/-! ### The path of a candidate -/

theorem scratchFile_isAbsolute (hfolder : Path.isAbsolute folder) (candidate : Candidate) :
    Path.isAbsolute (scratchFile folder candidate) := by
  by_cases hname : Path.isAbsolute candidate.scratchName
  · rwa [scratchFile, Path.join, if_pos hname]
  · rwa [scratchFile, Path.isAbsolute_join hname]

theorem exists_getLast?_extension (dialect : Dialect) :
    ∃ c, dialect.rules.extension.getLast? = some c ∧ c ∉ folderPlaceholder := by
  cases dialect with
  | go => exact ⟨'o', rfl, by decide⟩
  | javaScript => exact ⟨'s', rfl, by decide⟩
  | java => exact ⟨'a', rfl, by decide⟩

/-- No occurrence of the placeholder for the folder begins or ends outside the path of a candidate
and reaches into it. -/
theorem scratchFile_detached (hfolder : Path.isAbsolute folder) (candidate : Candidate) :
    Detached (scratchFile folder candidate) folderPlaceholder := by
  obtain ⟨c, hlast, hc⟩ := exists_getLast?_extension candidate.dialect
  obtain ⟨front, hfront⟩ : candidate.dialect.rules.extension <:+ scratchFile folder candidate :=
    (List.suffix_append _ _).trans (Path.suffix_join folder candidate.scratchName)
  obtain ⟨rest, hrest⟩ := Path.isAbsolute_iff.mp (scratchFile_isAbsolute hfolder candidate)
  have hslash : '/' ∉ folderPlaceholder := by decide
  constructor
  · apply endsApart_of_getLast?
    rw [← hfront, List.getLast?_append, hlast]
    rintro d ⟨rfl⟩
    exact hc
  · apply endsApart_of_head?
    rw [hrest]
    rintro d ⟨rfl⟩
    exact hslash
  · intro hholds
    rw [hrest] at hholds
    exact hslash (hholds.subset List.mem_cons_self)

theorem folderPlaceholder_infix_scratchName_iff (candidate : Candidate) :
    folderPlaceholder <:+: candidate.scratchName ↔
      candidate.dialect.rules.renameTarget? = none ∧ folderPlaceholder <:+: candidate.stem := by
  have hname : candidate.scratchName = candidate.dialect.rules.renameTarget?.getD candidate.stem ++
      '.' :: candidate.dialect.rules.extension :=
    List.append_assoc _ _ _
  have hapart : EndsApart folderPlaceholder ('.' :: candidate.dialect.rules.extension) := by
    apply endsApart_of_head?
    rintro d ⟨rfl⟩
    decide
  have hextension : ¬folderPlaceholder <:+: '.' :: candidate.dialect.rules.extension := by
    cases candidate.dialect <;> decide
  rw [hname, infix_append_iff_of_endsApart (Or.inr hapart), or_iff_left hextension]
  cases candidate.dialect with
  | go => exact (and_iff_right rfl).symm
  | javaScript => exact (and_iff_right rfl).symm
  | java =>
      have hmain : ¬folderPlaceholder <:+: ("Main" : Text) := by decide
      exact iff_of_false hmain (fun h => nomatch h.1)

/-- The path of a candidate has the placeholder for the folder in it if the stem has it, in dialects
that name files by it, or the folder. -/
theorem folderPlaceholder_infix_scratchFile_iff (folder : Path) (candidate : Candidate) :
    folderPlaceholder <:+: scratchFile folder candidate ↔
      (candidate.dialect.rules.renameTarget? = none ∧ folderPlaceholder <:+: candidate.stem) ∨
        (¬Path.isAbsolute candidate.scratchName ∧ folderPlaceholder <:+: folder) := by
  have hslash : '/' ∉ folderPlaceholder := by decide
  rw [← folderPlaceholder_infix_scratchName_iff, scratchFile, Path.join]
  split_ifs with hname hend
  · rw [or_iff_left fun h => h.1 hname]
  · have hapart : EndsApart folder folderPlaceholder := by
      apply endsApart_of_getLast?
      rcases (Bool.or_eq_true _ _).mp hend with hempty | hends
      · rw [List.isEmpty_iff.mp hempty]
        intro c hc
        cases hc
      · obtain ⟨front, rfl⟩ := List.isSuffixOf_iff_suffix.mp hends
        rw [List.getLast?_append]
        rintro d ⟨rfl⟩
        exact hslash
    rw [infix_append_iff_of_endsApart (Or.inl hapart), and_iff_right hname, or_comm]
  · have hapart : EndsApart folderPlaceholder ('/' :: candidate.scratchName) := by
      apply endsApart_of_head?
      rintro d ⟨rfl⟩
      exact hslash
    have hbehind : folderPlaceholder <:+: '/' :: candidate.scratchName ↔
        folderPlaceholder <:+: candidate.scratchName := by
      rw [List.infix_cons_iff]
      exact or_iff_right fun hleads => hapart _ (by decide) List.suffix_rfl hleads
    rw [List.append_assoc, and_iff_right hname, or_comm, ← hbehind]
    exact infix_append_iff_of_endsApart (Or.inr hapart)

/-! ### Two replacements and one pass -/

/-- The two replacements are one pass in which the path of the candidate has been looked through. -/
theorem fillIn_eq_expand (hfolder : Path.isAbsolute folder) (candidate : Candidate)
    (argument : Text) :
    fillIn folder candidate argument =
      expand [(filePlaceholder, replaceAll folderPlaceholder folder (scratchFile folder candidate)),
        (folderPlaceholder, folder)] argument := by
  have hfile : filePlaceholder ≠ [] := by decide
  rw [fillIn, replaceAll_eq_expand hfile]
  apply replaceAll_expand folder
  · exact unambiguous_placeholders
  · intro row hrow
    obtain rfl := List.mem_singleton.mp hrow
    exact scratchFile_detached hfolder candidate
  · intro row hrow
    obtain rfl := List.mem_singleton.mp hrow
    exact filePlaceholder_apart

/-- An argument is filled in as by one pass if it does not name the candidate, or if the path of the
candidate has no placeholder in it. -/
theorem fillIn_eq_fillInOnce_iff (hfolder : Path.isAbsolute folder) (candidate : Candidate)
    (argument : Text) :
    fillIn folder candidate argument = fillInOnce folder candidate argument ↔
      (filePlaceholder <:+: argument → ¬folderPlaceholder <:+: scratchFile folder candidate) := by
  have hplaceholder : folderPlaceholder ≠ [] := by decide
  have hvalue : folder ≠ folderPlaceholder := by
    rintro rfl
    revert hfolder
    decide
  rw [← replaceAll_eq_self_iff hplaceholder hvalue, fillIn_eq_expand hfolder, fillInOnce]
  apply expand_eq_iff
  · exact unambiguous_placeholders
  · intro row hrow
    obtain rfl := List.mem_singleton.mp hrow
    exact filePlaceholder_apart

/-- **When the arguments are those of a single pass.** On every system a program is run with its
arguments filled in for a scratch folder. This is one pass, but with the path of the candidate looked
through for the folder. It is the same as one pass with the path itself exactly if no argument names
the candidate or its path has no placeholder for the folder, which comes from its stem or from the
folder. -/
theorem arguments_filled_once_iff (program : Program) {folder : Path}
    (hfolder : Path.isAbsolute folder) (candidate : Candidate) :
    let file := scratchFile folder candidate
    let filled := program.arguments.map (fillIn folder candidate)
    (∀ system disk, program.oracleIn system folder disk candidate =
      program.answer system filled disk file candidate) ∧
    filled = program.arguments.map (expand
      [(filePlaceholder, replaceAll folderPlaceholder folder file), (folderPlaceholder, folder)]) ∧
    (filled = program.arguments.map (fillInOnce folder candidate) ↔
      ((∃ argument ∈ program.arguments, filePlaceholder <:+: argument) →
        ¬folderPlaceholder <:+: file)) ∧
    (folderPlaceholder <:+: file ↔
      (candidate.dialect.rules.renameTarget? = none ∧ folderPlaceholder <:+: candidate.stem) ∨
        (¬Path.isAbsolute candidate.scratchName ∧ folderPlaceholder <:+: folder)) := by
  intro file filled
  refine ⟨fun system disk => rfl, ?_, ?_, folderPlaceholder_infix_scratchFile_iff folder candidate⟩
  · apply List.map_congr_left
    intro argument _
    exact fillIn_eq_expand hfolder candidate argument
  · rw [List.map_inj_left]
    constructor
    · rintro h ⟨argument, hargument, hnames⟩
      exact (fillIn_eq_fillInOnce_iff hfolder candidate argument).mp (h argument hargument) hnames
    · intro h argument hargument
      apply (fillIn_eq_fillInOnce_iff hfolder candidate argument).mpr
      exact fun hnames => h ⟨argument, hargument, hnames⟩

/-- A check of the file that a candidate was written to. -/
def fileCheck : Program :=
  ⟨"sh", ["-c", "test -f \"$0\"", filePlaceholder, "in=" ++ folderPlaceholder], none⟩

/-- A candidate whose stem is the placeholder for the folder is looked for at another path. -/
theorem fillIn_twice :
    ¬∀ (program : Program) (folder : Path) (candidate : Candidate), Path.isAbsolute folder →
      program.arguments.map (fillIn folder candidate) =
        program.arguments.map (fillInOnce folder candidate) := by
  intro h
  have hsame := h fileCheck scratchFolder ⟨.go, folderPlaceholder, "x"⟩ (by decide)
  revert hsame
  decide +kernel

theorem arguments_filled_once_fileCheck :
    let candidate : Candidate := ⟨.javaScript, "Widgets_Get", "x"⟩
    Path.isAbsolute scratchFolder ∧ ¬folderPlaceholder <:+: scratchFile scratchFolder candidate ∧
      fileCheck.arguments.map (fillIn scratchFolder candidate) =
        ["-c", "test -f \"$0\"", "/tmp/exemplar-validate-AbCdEf/Widgets_Get.js",
          "in=/tmp/exemplar-validate-AbCdEf"] := by
  intro candidate
  have hfolder : Path.isAbsolute scratchFolder := by decide
  obtain ⟨-, -, hiff, hoccurs⟩ := arguments_filled_once_iff fileCheck hfolder candidate
  have hnone : ¬folderPlaceholder <:+: scratchFile scratchFolder candidate := by
    rw [hoccurs]
    decide +kernel
  refine ⟨hfolder, hnone, ?_⟩
  rw [hiff.mpr fun _ => hnone]
  decide +kernel

end Program

end SampleHarvest
