import SampleHarvest.Proofs.Sample.Examples
import SampleHarvest.Proofs.Sample.Header
import SampleHarvest.Proofs.Sample.Routine

/-!
# Extraction is a fixpoint on its own output

The standalone source of a routine is itself a sample, with the header already cut off and with one
routine. Taking it apart once more gives this routine again: the lines in front are the same, they
end outside a comment as before, and so the unit begins where it began.

Routines whose last marker has no reference stay among the shared lines if they stand above the
first valid one. They are found again, and they are not valid again.
-/

namespace SampleHarvest

open CommentedRoutine

variable {rules : DialectRules} {lead : List Line}

/-- Lines shared by routines, which hold the end of a header, and routines below comments with gaps
between them. Only the last gap may end in a comment. -/
structure IsWellFormed (rules : DialectRules) (lead : List Line)
    (parts : List (CommentedRoutine rules × List Line)) : Prop where
  exists_isHeaderEnd : ∃ line ∈ lead, rules.isHeaderEnd line
  opensNone : ∀ gap ∈ lead :: parts.map Prod.snd, rules.OpensNone gap
  endsOutsideComment : ∀ gap ∈ (lead :: parts.map Prod.snd).dropLast, rules.EndsOutsideComment gap

namespace CommentedRoutine

variable {position : Nat} {parts : List (CommentedRoutine rules × List Line)}

theorem unitsAt_append (position : Nat) (parts others : List (CommentedRoutine rules × List Line)) :
    unitsAt position (parts ++ others) =
      unitsAt position parts ++ unitsAt (position + (withGapsAfter parts).length) others := by
  induction parts generalizing position with
  | nil => simp [unitsAt, withGapsAfter]
  | cons part parts ih =>
      simp [unitsAt, withGapsAfter, ih]
      congr 1
      omega

theorem withGapsAfter_append (parts others : List (CommentedRoutine rules × List Line)) :
    withGapsAfter (parts ++ others) = withGapsAfter parts ++ withGapsAfter others :=
  List.flatMap_append

theorem withGapsAfter_concat (parts : List (CommentedRoutine rules × List Line))
    (routine : CommentedRoutine rules) :
    withGapsAfter (parts ++ [(routine, [])]) = withGapsAfter parts ++ routine.lines := by
  simp [withGapsAfter]

theorem lines_sublist_withGapsAfter {part : CommentedRoutine rules × List Line}
    (hpart : part ∈ parts) : part.1.lines.Sublist (withGapsAfter parts) := by
  have hmem : part.1.lines ++ part.2 ∈ parts.map fun other => other.1.lines ++ other.2 :=
    List.mem_map_of_mem hpart
  exact (List.sublist_append_left _ part.2).trans (List.sublist_flatten_of_mem hmem)

theorem exists_of_mem_unitsAt {u : SampleUnit} (hu : u ∈ unitsAt position parts) :
    ∃ part ∈ parts, ∃ first, u = part.1.unitAt first := by
  induction parts generalizing position with
  | nil => cases hu
  | cons part parts ih =>
      rcases List.mem_cons.mp hu with rfl | hu
      · exact ⟨part, List.mem_cons_self, position, rfl⟩
      · obtain ⟨other, hother, first, rfl⟩ := ih hu
        exact ⟨other, List.mem_cons_of_mem _ hother, first, rfl⟩

theorem filter_unitsAt (h : ∀ part ∈ parts, part.1.reference? = none) :
    (unitsAt position parts).filter SampleUnit.isValid = [] := by
  refine List.filter_eq_nil_iff.mpr fun u hu => ?_
  obtain ⟨part, hpart, first, rfl⟩ := exists_of_mem_unitsAt hu
  simp [SampleUnit.isValid, unitAt, h part hpart]

theorem unitAt_of_reference? {routine : CommentedRoutine rules} {reference : Text}
    (h : routine.reference? = some reference) (position : Nat) :
    routine.unitAt position =
      ⟨some reference, position, position + routine.lines.length, routine.lines⟩ := by
  simp [unitAt, leftOut, h]

/-- A routine with a reference is the first of its kind or stands below it. -/
theorem exists_first_reference {part : CommentedRoutine rules × List Line} (hpart : part ∈ parts)
    {reference : Text} (h : part.1.reference? = some reference) :
    ∃ invalid first rest firstReference, parts = invalid ++ first :: rest ∧
      (∀ other ∈ invalid, other.1.reference? = none) ∧
      first.1.reference? = some firstReference ∧ part ∈ first :: rest := by
  let isFirst (other : CommentedRoutine rules × List Line) : Bool := other.1.reference?.isSome
  have hsome : (parts.find? isFirst).isSome :=
    List.find?_isSome.mpr ⟨part, hpart, Option.isSome_of_eq_some h⟩
  obtain ⟨first, hfound⟩ := Option.isSome_iff_exists.mp hsome
  obtain ⟨hfirst, invalid, rest, rfl, hinvalid⟩ := List.find?_eq_some_iff_append.mp hfound
  obtain ⟨firstReference, hfirst⟩ := Option.isSome_iff_exists.mp hfirst
  replace hinvalid : ∀ other ∈ invalid, other.1.reference? = none := by
    simpa [isFirst] using hinvalid
  refine ⟨invalid, first, rest, firstReference, rfl, hinvalid, hfirst, ?_⟩
  refine (List.mem_append.mp hpart).resolve_left fun hmem => ?_
  rw [hinvalid part hmem] at h
  cases h

end CommentedRoutine

namespace IsWellFormed

variable {parts invalid rest : List (CommentedRoutine rules × List Line)}
  {first : CommentedRoutine rules × List Line} {reference : Text}

theorem units_eq (hrules : rules.TellsLinesApart) (h : IsWellFormed rules lead parts) :
    (Sample.ofLines rules (lead ++ withGapsAfter parts)).units =
      (unitsAt lead.length parts).filter SampleUnit.isValid := by
  have hrun := scanRun hrules [] lead parts (h.opensNone lead List.mem_cons_self)
    (fun part hpart => h.opensNone part.2 (by simpa using Or.inr ⟨part.1, hpart⟩))
    h.endsOutsideComment
  simp only [List.nil_append, List.length_nil, Nat.zero_add] at hrun
  rw [Sample.units_ofLines, ← (DialectRules.scanRun_iff rules _).mp hrun]

/-- The valid units of a well-formed sample begin with its first valid routine. -/
theorem units_eq_cons (hrules : rules.TellsLinesApart)
    (h : IsWellFormed rules lead (invalid ++ first :: rest))
    (hinvalid : ∀ part ∈ invalid, part.1.reference? = none)
    (hfirst : first.1.reference? = some reference) :
    ∃ units, (Sample.ofLines rules (lead ++ withGapsAfter (invalid ++ first :: rest))).units =
        first.1.unitAt (lead.length + (withGapsAfter invalid).length) :: units ∧
      (rest = [] → units = []) := by
  rw [h.units_eq hrules, unitsAt_append, List.filter_append, filter_unitsAt hinvalid,
    List.nil_append, unitsAt, unitAt_of_reference? hfirst, List.filter_cons_of_pos rfl]
  refine ⟨_, rfl, ?_⟩
  rintro rfl
  rfl

theorem prologue_eq (hrules : rules.TellsLinesApart)
    (h : IsWellFormed rules lead (invalid ++ first :: rest))
    (hinvalid : ∀ part ∈ invalid, part.1.reference? = none)
    (hfirst : first.1.reference? = some reference) :
    (Sample.ofLines rules (lead ++ withGapsAfter (invalid ++ first :: rest))).prologue =
      lead ++ withGapsAfter invalid := by
  obtain ⟨units, hunits, -⟩ := h.units_eq_cons hrules hinvalid hfirst
  have hlast := List.getLast?_eq_some_getLast (List.cons_ne_nil
    (first.1.unitAt (lead.length + (withGapsAfter invalid).length)) units)
  obtain ⟨hprologue, -⟩ := Sample.ofLines_of_units_eq_cons rules _ hunits hlast
  rw [hprologue, unitAt_of_reference? hfirst, withGapsAfter_append, ← List.append_assoc,
    ← List.length_append]
  exact List.take_left

/-- The standalone source of a routine: the shared lines without their header, and the routine. -/
theorem standalone_eq (hrules : rules.TellsLinesApart) (hepilogue : rules.requiresEpilogue = false)
    (h : IsWellFormed rules lead (invalid ++ first :: rest))
    (hinvalid : ∀ part ∈ invalid, part.1.reference? = none)
    (hfirst : first.1.reference? = some reference) (u : SampleUnit) :
    (Sample.ofLines rules (lead ++ withGapsAfter (invalid ++ first :: rest))).standalone rules u
      none = rules.trimHeader lead ++ (withGapsAfter invalid ++ u.body) := by
  rw [Sample.standalone, Sample.assemble, h.prologue_eq hrules hinvalid hfirst, hepilogue,
    if_neg Bool.false_ne_true, List.append_nil, List.append_assoc]
  exact DialectRules.trimHeader_append_of_exists h.exists_isHeaderEnd _

/-- Without the header and with one valid routine only, a well-formed sample is still one. -/
theorem alone (hcut : rules.headerCut = .keepEndLine)
    (h : IsWellFormed rules lead (invalid ++ first :: rest)) (routine : CommentedRoutine rules) :
    IsWellFormed rules (rules.trimHeader lead) (invalid ++ [(routine, [])]) := by
  obtain ⟨endLine, shared, htrim, hend⟩ :=
    DialectRules.exists_trimHeader_eq_cons hcut h.exists_isHeaderEnd
  obtain ⟨header, hheader⟩ := rules.trimHeader_suffix lead
  have hgaps : ∀ gap ∈ lead :: invalid.map Prod.snd,
      rules.OpensNone gap ∧ rules.EndsOutsideComment gap := by
    have hopens := h.opensNone
    have hends := h.endsOutsideComment
    simp only [List.map_append, List.map_cons, ← List.cons_append, List.dropLast_append_cons]
      at hopens hends
    exact fun gap hgap => ⟨hopens gap (List.mem_append_left _ hgap),
      hends gap (List.mem_append_left _ hgap)⟩
  obtain ⟨hlead, hinvalid⟩ := List.forall_mem_cons.mp hgaps
  refine ⟨⟨endLine, by simp [htrim], hend⟩, fun gap hgap => ?_, fun gap hgap => ?_⟩
  · rw [List.map_append] at hgap
    rcases List.mem_cons.mp hgap with rfl | hgap
    · exact fun line hline => hlead.1 line ((rules.trimHeader_suffix lead).subset hline)
    · rcases List.mem_append.mp hgap with hgap | hgap
      · exact (hinvalid gap hgap).1
      · obtain rfl := List.mem_singleton.mp hgap
        exact List.forall_mem_nil _
  · rw [List.map_append, ← List.cons_append, List.map_singleton, List.dropLast_concat] at hgap
    rcases List.mem_cons.mp hgap with rfl | hgap
    · -- The last line is the last one that was shared before.
      intro line hline
      refine hlead.2 line ?_
      rw [← hheader, List.getLast?_append, Option.mem_def.mp hline]
      rfl
    · exact (hinvalid gap hgap).2

/-- A well-formed sample without a header above the shared lines has its own text as the source of
its only routine with a reference. -/
theorem examples_eq (hrules : rules.TellsLinesApart) (hepilogue : rules.requiresEpilogue = false)
    {routine : CommentedRoutine rules}
    (h : IsWellFormed rules lead (invalid ++ [(routine, [])]))
    (hinvalid : ∀ part ∈ invalid, part.1.reference? = none)
    (hreference : routine.reference? = some reference) (htrim : rules.trimHeader lead = lead)
    {symbol : Text} (hrename : rules.rename? symbol = none) :
    ∃ start stop,
      (Sample.ofLines rules (lead ++ withGapsAfter (invalid ++ [(routine, [])]))).examples rules
        symbol = [⟨0, reference, Target.ofReference reference rules.folderSuffix, start, stop,
          (lead ++ withGapsAfter (invalid ++ [(routine, [])])).flatten⟩] := by
  obtain ⟨units, hunits, hnil⟩ := h.units_eq_cons hrules hinvalid hreference
  obtain rfl := hnil rfl
  rw [unitAt_of_reference? hreference] at hunits
  generalize lead.length + (withGapsAfter invalid).length = position at hunits
  have hlines := h.standalone_eq hrules hepilogue hinvalid hreference
    ⟨some reference, position, position + routine.lines.length, routine.lines⟩
  rw [htrim, ← withGapsAfter_concat] at hlines
  refine ⟨position, position + routine.lines.length, ?_⟩
  simp [Sample.examples, hunits, hrename, Sample.exampleOf, hlines]

end IsWellFormed

/-- **Extraction is a fixpoint on its own output.** In Go and JavaScript, whatever example comes out
of a well-formed sample, its source is a sample with exactly one example. This has the same
reference, the same target and the same source. -/
theorem extractExamples_again {dialect : Dialect} (hdialect : dialect = .go ∨ dialect = .javaScript)
    {text : Text} {lead : List Line} {parts : List (CommentedRoutine dialect.rules × List Line)}
    (hlines : splitLines text = lead ++ withGapsAfter parts)
    (hsample : IsWellFormed dialect.rules lead parts) {symbol : Text} {shown : Example}
    (hshown : shown ∈ extractExamples dialect.rules text symbol) (otherSymbol : Text) :
    ∃ again, extractExamples dialect.rules shown.code otherSymbol = [again] ∧
      again.reference = shown.reference ∧ again.target = shown.target ∧
      again.code = shown.code := by
  have hrules := dialect.tellsLinesApart
  obtain ⟨hepilogue, hcut, hrename⟩ : dialect.rules.requiresEpilogue = false ∧
      dialect.rules.headerCut = .keepEndLine ∧ ∀ symbol, dialect.rules.rename? symbol = none := by
    rcases hdialect with rfl | rfl <;> exact ⟨rfl, rfl, fun _ => rfl⟩
  -- The example is that of a routine whose last marker has its reference.
  rw [extractExamples_eq, hlines] at hshown
  obtain ⟨⟨u, index⟩, hmem, hu⟩ := List.mem_filterMap.mp hshown
  obtain ⟨reference, hreference, rfl⟩ := Option.map_eq_some_iff.mp hu
  have hunit := List.fst_mem_of_mem_zipIdx hmem
  rw [hsample.units_eq hrules] at hunit
  obtain ⟨part, hpart, position, rfl⟩ := exists_of_mem_unitsAt (List.mem_of_mem_filter hunit)
  replace hreference : part.1.reference? = some reference := hreference
  -- Its source has the lines that are shared with the first valid routine, and its own.
  obtain ⟨invalid, first, rest, firstReference, rfl, hinvalid, hfirst, hpart⟩ :=
    exists_first_reference hpart hreference
  have hbody : ∀ place, (part.1.unitAt place).body = part.1.lines := fun place => by
    rw [unitAt_of_reference? hreference]
  have hstandalone := hsample.standalone_eq hrules hepilogue hinvalid hfirst (part.1.unitAt position)
  rw [hbody, ← withGapsAfter_concat] at hstandalone
  have hcode : splitLines (dialect.rules.trimHeader lead ++
      withGapsAfter (invalid ++ [(part.1, [])])).flatten =
        dialect.rules.trimHeader lead ++ withGapsAfter (invalid ++ [(part.1, [])]) := by
    refine splitLines_flatten_of_sublist (t := text) ?_
    rw [hlines, withGapsAfter_concat, withGapsAfter_append]
    exact (dialect.rules.trimHeader_suffix lead).sublist.append
      ((List.Sublist.refl _).append (lines_sublist_withGapsAfter hpart))
  -- Taking the source apart gives the same lines once more.
  have htrim : dialect.rules.trimHeader (dialect.rules.trimHeader lead) =
      dialect.rules.trimHeader lead := by
    obtain ⟨endLine, shared, htrim, hend⟩ :=
      DialectRules.exists_trimHeader_eq_cons hcut hsample.exists_isHeaderEnd
    rw [htrim, DialectRules.trimHeader_cons_of_isHeaderEnd hend, hcut]
  obtain ⟨start, stop, hagain⟩ := (hsample.alone hcut part.1).examples_eq hrules hepilogue hinvalid
    hreference htrim (hrename otherSymbol)
  dsimp only [Sample.exampleOf]
  rw [hrename, hstandalone, extractExamples_eq, hcode, hagain]
  exact ⟨_, rfl, rfl, rfl, rfl⟩

/-- A routine whose last marker has no reference. -/
def lostRoutine : CommentedRoutine Dialect.javaScript.rules where
  comment := ["/**\n", " * x-ms-original-file: a/examples/Lost.json\n", " * x-ms-original-file:\n",
    " */\n"]
  opening := "async function lost() \x7b\n"
  inner := ["\x7d\n"]
  closing := "lost().catch(console.error);\n"
  isComment := by decide +kernel
  exists_isMarker := by decide +kernel
  isUnitStart := by decide +kernel
  inner_not_isUnitEnd := by decide +kernel
  isUnitEnd := by decide +kernel

/-- A routine with a reference, whose last line has no line feed. -/
def foundRoutine : CommentedRoutine Dialect.javaScript.rules where
  comment := ["/**\n", " * x-ms-original-file: a/examples/B.json\n", " */\n"]
  opening := "async function b() \x7b\n"
  inner := ["\x7d\n"]
  closing := "b().catch(console.error);"
  isComment := by decide +kernel
  exists_isMarker := by decide +kernel
  isUnitStart := by decide +kernel
  inner_not_isUnitEnd := by decide +kernel
  isUnitEnd := by decide +kernel

/-- A script with a header, in which the first routine is not valid. -/
theorem extractExamples_again_foundRoutine :
    let lead : List Line := ["// generated\n", "const a = require(\"a\");\n", "\n"]
    let parts := [(lostRoutine, [("\n" : Line)]), (foundRoutine, [])]
    let text := (lead ++ withGapsAfter parts).flatten
    splitLines text = lead ++ withGapsAfter parts ∧ IsWellFormed _ lead parts ∧
      ∃ shown ∈ extractExamples Dialect.javaScript.rules text [],
        shown.reference = "a/examples/B.json" ∧
        ∃ again, extractExamples Dialect.javaScript.rules shown.code [] = [again] ∧
          again.reference = shown.reference ∧ again.target = shown.target ∧
          again.code = shown.code := by
  intro lead parts text
  have hlines : splitLines text = lead ++ withGapsAfter parts := by decide +kernel
  have hsample : IsWellFormed Dialect.javaScript.rules lead parts :=
    ⟨by decide +kernel, by decide +kernel, by decide +kernel⟩
  have hone : (extractExamples Dialect.javaScript.rules text []).map Example.reference =
      [("a/examples/B.json" : Text)] := by decide +kernel
  obtain ⟨shown, hshown, hreference⟩ := List.mem_map.mp (hone ▸ List.mem_singleton_self _)
  exact ⟨hlines, hsample, shown, hshown, hreference,
    extractExamples_again (Or.inr rfl) hlines hsample hshown []⟩

end SampleHarvest
