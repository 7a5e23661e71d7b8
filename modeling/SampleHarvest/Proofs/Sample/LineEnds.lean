import SampleHarvest.Proofs.Sample.Likeness
import SampleHarvest.Proofs.Sample.Sources
import SampleHarvest.Proofs.Text.LineEnds

/-!
# Samples with other line ends

No test of a dialect sees the end of a line, so a sample in which each line ends with a carriage
return and a line feed is taken apart as the sample with line feeds only. The examples differ in the
line ends of their sources and in nothing else.
-/

namespace SampleHarvest

open Text

theorem Dialect.looksLike_lineEnd (dialect : Dialect) (front : Text) {lineEnd otherEnd : Text}
    (h : IsLineEnd lineEnd) (hother : IsLineEnd otherEnd) :
    dialect.rules.LooksLike (front ++ lineEnd) (front ++ otherEnd) := by
  have htrim : trim (front ++ otherEnd) = trim (front ++ lineEnd) := by
    rw [trim_append_blanks hother.isBlanks, trim_append_blanks h.isBlanks]
  have hstarts : ∀ {part : Text}, IsWithinLines part →
      startsWith (front ++ otherEnd) part = startsWith (front ++ lineEnd) part := by
    intro part hpart
    rw [hpart.startsWith_append hother, hpart.startsWith_append h]
  have hcomment : Line.isBlockOrSlashComment (front ++ otherEnd) =
      Line.isBlockOrSlashComment (front ++ lineEnd) := by
    rw [Line.isBlockOrSlashComment, Line.isBlockOrSlashComment, htrim]
  cases dialect with
  | go =>
      refine ⟨htrim, hstarts (by decide), hstarts (by decide), ?_, hstarts (by decide)⟩
      show Line.isSlashComment _ = Line.isSlashComment _
      rw [Line.isSlashComment, Line.isSlashComment, htrim]
  | javaScript =>
      refine ⟨htrim, hstarts (by decide), ?_, hcomment, ?_⟩
      · have hcatch : IsWithinLines ".catch(console.error);" := by decide
        show contains _ _ = contains _ _
        rw [hcatch.contains_append (by decide) hother, hcatch.contains_append (by decide) h]
      · show (!Line.isBlank _ && !Line.isBlockOrSlashComment _) =
          (!Line.isBlank _ && !Line.isBlockOrSlashComment _)
        rw [hcomment, Line.isBlank, Line.isBlank, htrim]
  | java => exact ⟨htrim, hstarts (by decide), hstarts (by decide), hcomment, hstarts (by decide)⟩

theorem Dialect.keepsLooks_withReturns (dialect : Dialect) (text : Text) :
    dialect.rules.KeepsLooks withReturns (splitLines text) := by
  intro line hline
  have hnone : IsLineEnd [] := fun c hc => absurd hc List.not_mem_nil
  have hfeed : IsLineEnd ['\n'] := by simp [IsLineEnd]
  have hreturn : IsLineEnd ['\r', '\n'] := by simp [IsLineEnd]
  obtain ⟨front, hfront, hend⟩ := exists_of_mem_splitLines hline
  rcases hend with rfl | rfl
  · have hsame := dialect.looksLike_lineEnd line hnone hnone
    rw [withReturns_of_not_mem hfront]
    rwa [List.append_nil] at hsame
  · rw [withReturns_append, withReturns_of_not_mem hfront]
    exact dialect.looksLike_lineEnd front hfeed hreturn

theorem Dialect.not_mem_renameTarget? (dialect : Dialect) :
    ∀ target ∈ dialect.rules.renameTarget?, '\n' ∉ target := by
  cases dialect <;> decide

theorem Rename.apply_withReturns {rename : Rename} (hsource : IsWithinLines rename.source)
    (hreplacement : '\n' ∉ rename.replacement) (line : Line) :
    rename.apply (withReturns line) = withReturns (rename.apply line) :=
  replaceAll_withReturns hsource hreplacement line

/-- The standalone source of a unit has the other line ends. -/
theorem Sample.standalone_withReturns (dialect : Dialect) (text : Text) {symbol : Text}
    (hsymbol : IsWithinLines symbol) {u : SampleUnit}
    (hu : u ∈ (Sample.ofLines dialect.rules (splitLines text)).units) :
    let rules := dialect.rules
    let sample := Sample.ofLines rules (splitLines text)
    ((sample.mapLines withReturns).standalone rules (u.mapLines withReturns)
        (rules.rename? symbol)).flatten =
      withReturns (sample.standalone rules u (rules.rename? symbol)).flatten := by
  intro rules sample
  have hassembled : rules.KeepsLooks withReturns (sample.assemble rules u) :=
    (dialect.keepsLooks_withReturns text).subset (assemble_sublist hu).subset
  have hrename : ∀ rename ∈ rules.rename? symbol, ∀ line,
      rename.apply (withReturns line) = withReturns (rename.apply line) := by
    intro rename hmem line
    obtain ⟨target, htarget, rfl⟩ := Option.map_eq_some_iff.mp hmem
    exact Rename.apply_withReturns hsymbol (dialect.not_mem_renameTarget? target htarget) line
  rw [Sample.standalone_mapLines hassembled hrename, withReturns_flatten]

theorem Sample.examples_withReturns (dialect : Dialect) (text : Text) {symbol : Text}
    (hsymbol : IsWithinLines symbol) :
    let rules := dialect.rules
    let sample := Sample.ofLines rules (splitLines text)
    (sample.mapLines withReturns).examples rules symbol =
      (sample.examples rules symbol).map fun shown =>
        { shown with code := withReturns shown.code } := by
  intro rules sample
  simp only [Sample.examples, Sample.mapLines, List.zipIdx_map, List.filterMap_map,
    List.map_filterMap]
  apply List.filterMap_congr
  rintro ⟨u, index⟩ hmem
  have hu : u ∈ sample.units := List.fst_mem_of_mem_zipIdx hmem
  have hcode := standalone_withReturns dialect text hsymbol hu
  show Option.map _ u.reference? = Option.map _ (Option.map _ u.reference?)
  rw [Option.map_map]
  refine congrArg (fun make => Option.map make u.reference?) (funext fun reference => ?_)
  simp only [Function.comp_apply, exampleOf]
  exact congrArg (Example.mk index reference _ u.start u.stop) hcode

/-- **Line ends make no difference.** For each dialect, a text whose lines end with a carriage return
and a line feed is scanned as the text with line feeds only: from every position the next unit has
the same reference and the same range, and so have all units. The examples are the same, with the
other line ends in their sources, if the shared symbol lies within a line. -/
theorem extractExamples_withReturns (dialect : Dialect) (text : Text) {symbol : Text}
    (hsymbol : IsWithinLines symbol) :
    let rules := dialect.rules
    let lines := splitLines text
    let others := splitLines (withReturns text)
    (∀ start, rules.nextUnit? others start =
      (rules.nextUnit? lines start).map (SampleUnit.mapLines withReturns)) ∧
    rules.scan others = (rules.scan lines).map (SampleUnit.mapLines withReturns) ∧
    extractExamples rules (withReturns text) symbol =
      (extractExamples rules text symbol).map fun shown =>
        { shown with code := withReturns shown.code } := by
  intro rules lines others
  have hlines : others = lines.map withReturns := splitLines_withReturns text
  have hlooks : rules.KeepsLooks withReturns lines := dialect.keepsLooks_withReturns text
  refine ⟨fun start => ?_, ?_, ?_⟩
  · rw [hlines, DialectRules.nextUnit?_map hlooks]
  · rw [hlines, DialectRules.scan_map hlooks]
  · rw [extractExamples, extractExamples, splitLines_withReturns,
      DialectRules.isAggregated_map hlooks, Sample.ofLines_map hlooks]
    split
    · exact Sample.examples_withReturns dialect text hsymbol
    · rfl

/-- A class with a wrapped reference, whose name is replaced beside a line end. -/
theorem extractExamples_withReturns_class :
    let rules := Dialect.java.rules
    let text : Text := "package a;\nclass\n Sa\n\x7b\n* x-ms-original-file:\n* a/\n* B\n" ++
      "    public static void b()\n    \x7d\n\x7d"
    IsWithinLines "Sa" ∧
      ((rules.scan (splitLines (withReturns text))).map fun u => (u.reference?, u.start, u.stop)) =
        [(some ("a/B" : Text), 4, 9)] ∧
      (extractExamples rules (withReturns text) "Sa").map Example.code =
        [("class\r\n Main\r\n\x7b\r\n* x-ms-original-file:\r\n* a/\r\n* B\r\n" ++
          "    public static void b()\r\n    \x7d\r\n\x7d" : Text)] := by
  intro rules text
  have hsymbol : IsWithinLines "Sa" := by decide
  obtain ⟨-, hscan, hexamples⟩ := extractExamples_withReturns Dialect.java text hsymbol
  have hunits : (rules.scan (splitLines text)).map (fun u => (u.reference?, u.start, u.stop)) =
      [(some ("a/B" : Text), 4, 9)] := by decide +kernel
  have hcodes : (extractExamples rules text "Sa").map (fun shown => withReturns shown.code) =
      [("class\r\n Main\r\n\x7b\r\n* x-ms-original-file:\r\n* a/\r\n* B\r\n" ++
        "    public static void b()\r\n    \x7d\r\n\x7d" : Text)] := by decide +kernel
  refine ⟨hsymbol, ?_, ?_⟩
  · rw [hscan, List.map_map]
    exact hunits
  · rw [hexamples, List.map_map]
    exact hcodes

end SampleHarvest
