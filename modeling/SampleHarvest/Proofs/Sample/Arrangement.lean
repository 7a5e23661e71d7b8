import SampleHarvest.Proofs.Sample.Routine

/-!
# Arranged samples

A generator writes routines one after the other, each below a comment with a marker, and other lines
before, between and after them. Taking such a sample apart gives exactly its routines: every scan
step finds the next one, whatever markers stand above its comment, and goes back to the first line
of its comment and no further.
-/

namespace SampleHarvest

/-- A routine below a comment whose last marker has a reference. -/
structure MarkedRoutine (rules : DialectRules) where
  before : List Line
  marker : Line
  after : List Line
  opening : Line
  /-- The lines between the opening and the closing line. -/
  inner : List Line
  closing : Line
  reference : Text
  isComment : ∀ line ∈ before ++ marker :: after, rules.isComment line
  after_not_isMarker : ∀ line ∈ after, ¬rules.isMarker line
  reference?_eq : rules.reference? marker after = some reference
  isUnitStart : rules.isUnitStart opening
  inner_not_isUnitEnd : ∀ line ∈ inner, ¬rules.isUnitEnd line
  isUnitEnd : rules.isUnitEnd closing

namespace MarkedRoutine

variable {rules : DialectRules}

def comment (routine : MarkedRoutine rules) : List Line :=
  routine.before ++ routine.marker :: routine.after

def lines (routine : MarkedRoutine rules) : List Line :=
  routine.comment ++ routine.opening :: (routine.inner ++ [routine.closing])

/-- The unit that the routine is if its first line stands at a position. -/
def unitAt (routine : MarkedRoutine rules) (position : Nat) : SampleUnit where
  reference? := some routine.reference
  start := position
  stop := position + routine.lines.length
  body := routine.lines

/-- The units of routines with a gap after each of them, the first of which stands at a position. -/
def unitsAt : (position : Nat) → (parts : List (MarkedRoutine rules × List Line)) → List SampleUnit
  | _, [] => []
  | position, (routine, gap) :: parts =>
    routine.unitAt position :: unitsAt (position + routine.lines.length + gap.length) parts

def withGapsAfter (parts : List (MarkedRoutine rules × List Line)) : List Line :=
  parts.flatMap fun (routine, gap) => routine.lines ++ gap

/-- A marker is known by its reference. -/
theorem isMarker (routine : MarkedRoutine rules) : rules.isMarker routine.marker := by
  have hsome := routine.reference?_eq
  rw [DialectRules.reference?] at hsome
  rw [DialectRules.isMarker]
  cases hvalue : rules.markerValue? routine.marker with
  | none => rw [hvalue] at hsome; cases hsome
  | some value => rfl

/-- The routine with nothing said about its reference. -/
def toCommented (routine : MarkedRoutine rules) : CommentedRoutine rules where
  comment := routine.comment
  opening := routine.opening
  inner := routine.inner
  closing := routine.closing
  isComment := routine.isComment
  exists_isMarker := ⟨routine.marker, by simp [comment], routine.isMarker⟩
  isUnitStart := routine.isUnitStart
  inner_not_isUnitEnd := routine.inner_not_isUnitEnd
  isUnitEnd := routine.isUnitEnd

theorem reference?_toCommented (routine : MarkedRoutine rules) :
    routine.toCommented.reference? = some routine.reference := by
  have hcomment : routine.toCommented.comment = routine.before ++ routine.marker :: routine.after :=
    rfl
  rw [CommentedRoutine.reference?, hcomment,
    DialectRules.pendingAfter_of_isMarker routine.isMarker routine.after_not_isMarker,
    List.append_nil, routine.reference?_eq]

theorem unitAt_toCommented (routine : MarkedRoutine rules) (position : Nat) :
    routine.toCommented.unitAt position = routine.unitAt position := by
  have hlines : routine.toCommented.lines = routine.lines := rfl
  simp [CommentedRoutine.unitAt, unitAt, CommentedRoutine.leftOut, reference?_toCommented, hlines]

theorem unitsAt_toCommented (position : Nat) (parts : List (MarkedRoutine rules × List Line)) :
    CommentedRoutine.unitsAt position (parts.map (Prod.map toCommented id)) =
      unitsAt position parts := by
  induction parts generalizing position with
  | nil => rfl
  | cons part parts ih =>
      rw [unitsAt, ← ih, ← unitAt_toCommented]
      rfl

/-- The scan of routines with gaps finds each of them. -/
theorem scanRun (hrules : rules.TellsLinesApart) (front lead : List Line)
    (parts : List (MarkedRoutine rules × List Line)) (hlead : rules.OpensNone lead)
    (hgaps : ∀ part ∈ parts, rules.OpensNone part.2)
    (hends : ∀ gap ∈ (lead :: parts.map Prod.snd).dropLast, rules.EndsOutsideComment gap) :
    rules.ScanRun (front ++ (lead ++ withGapsAfter parts)) front.length
      (unitsAt (front.length + lead.length) parts) := by
  have hlines : CommentedRoutine.withGapsAfter (parts.map (Prod.map toCommented id)) =
      withGapsAfter parts := by
    rw [CommentedRoutine.withGapsAfter, List.flatMap_map]
    rfl
  have hsnd : (parts.map (Prod.map toCommented id)).map Prod.snd = parts.map Prod.snd := by
    rw [List.map_map]
    rfl
  rw [← hlines, ← unitsAt_toCommented]
  refine CommentedRoutine.scanRun hrules front lead _ hlead ?_ (hsnd ▸ hends)
  intro part hpart
  obtain ⟨marked, hmarked, rfl⟩ := List.mem_map.mp hpart
  exact hgaps marked hmarked

theorem isValid_of_mem_unitsAt {position : Nat} {parts : List (MarkedRoutine rules × List Line)} :
    ∀ u ∈ unitsAt position parts, u.isValid := by
  induction parts generalizing position with
  | nil => intro u hu; cases hu
  | cons part parts ih =>
      intro u hu
      rcases List.mem_cons.mp hu with rfl | hu
      · rfl
      · exact ih u hu

theorem length_unitsAt (position : Nat) (parts : List (MarkedRoutine rules × List Line)) :
    (unitsAt position parts).length = parts.length := by
  induction parts generalizing position with
  | nil => rfl
  | cons part parts ih => rw [unitsAt, List.length_cons, ih, List.length_cons]

theorem unitsAt_concat (position : Nat) (parts : List (MarkedRoutine rules × List Line))
    (part : MarkedRoutine rules × List Line) :
    unitsAt position (parts ++ [part]) =
      unitsAt position parts ++ [part.1.unitAt (position + (withGapsAfter parts).length)] := by
  induction parts generalizing position with
  | nil => rfl
  | cons other parts ih =>
      have hposition : position + other.1.lines.length + other.2.length +
          (withGapsAfter parts).length = position + (withGapsAfter (other :: parts)).length := by
        simp only [withGapsAfter, List.flatMap_cons, List.length_append]
        omega
      rw [List.cons_append, unitsAt, ih, unitsAt, List.cons_append, hposition]

end MarkedRoutine

namespace Sample

open MarkedRoutine

/-- **Every routine of an arranged sample is found exactly.** In every dialect, routines below
comments whose last marker has a reference, with lines before, between and after them that open no
unit, are the valid units of their sample, with the references, the lines and the ranges of the
routines. The lines before the first routine are the prologue and those after the last one the
epilogue. -/
theorem ofLines_arranged (dialect : Dialect) (lead : List Line)
    (parts : List (MarkedRoutine dialect.rules × List Line)) (hlead : dialect.rules.OpensNone lead)
    (hgaps : ∀ part ∈ parts, dialect.rules.OpensNone part.2)
    (hends : ∀ gap ∈ (lead :: parts.map Prod.snd).dropLast,
      dialect.rules.EndsOutsideComment gap) :
    (ofLines dialect.rules (lead ++ withGapsAfter parts)).units = unitsAt lead.length parts ∧
    (unitsAt lead.length parts).length = parts.length ∧
    ∀ last ∈ parts.getLast?,
      (ofLines dialect.rules (lead ++ withGapsAfter parts)).prologue = lead ∧
      (ofLines dialect.rules (lead ++ withGapsAfter parts)).epilogue = last.2 := by
  have hrun := scanRun dialect.tellsLinesApart [] lead parts hlead hgaps hends
  have hunits : (ofLines dialect.rules (lead ++ withGapsAfter parts)).units =
      unitsAt lead.length parts := by
    simp only [List.nil_append, List.length_nil, Nat.zero_add] at hrun
    rw [units_ofLines, ← (DialectRules.scanRun_iff dialect.rules _).mp hrun]
    exact List.filter_eq_self.mpr isValid_of_mem_unitsAt
  refine ⟨hunits, length_unitsAt lead.length parts, ?_⟩
  intro last hlast
  obtain ⟨others, rfl⟩ := List.getLast?_eq_some_iff.mp hlast
  obtain ⟨first, later, hfirst⟩ : ∃ first later, others ++ [last] = first :: later :=
    List.exists_cons_of_ne_nil (by simp)
  have hlastUnit := congrArg List.getLast? (unitsAt_concat lead.length others last)
  rw [List.getLast?_concat, hfirst, unitsAt] at hlastUnit
  rw [hfirst, unitsAt] at hunits
  obtain ⟨hprologue, hepilogue⟩ := ofLines_of_units_eq_cons dialect.rules _ hunits hlastUnit
  rw [hfirst, hprologue, hepilogue, ← hfirst]
  constructor
  · exact List.take_left
  · have hlines : lead ++ withGapsAfter (others ++ [last]) =
        (lead ++ withGapsAfter others ++ last.1.lines) ++ last.2 := by
      simp [withGapsAfter]
    rw [hlines, unitAt]
    exact List.drop_left' (by simp [Nat.add_assoc])

/-- A routine whose marker wraps its reference onto two lines. -/
def wrappedRoutine : MarkedRoutine Dialect.java.rules where
  before := ["    /*\n", "     * x-ms-original-file: other/Stray.json\n"]
  marker := "     * x-ms-original-file:\n"
  after := ["     * a/examples/\n", "     * B.json\n", "     */\n"]
  opening := "    public static void b() \x7b\n"
  inner := ["        // x-ms-original-file: not/a/Marker.json\n"]
  closing := "    \x7d\n"
  reference := "a/examples/B.json"
  isComment := by decide +kernel
  after_not_isMarker := by decide +kernel
  reference?_eq := by decide +kernel
  isUnitStart := by decide +kernel
  inner_not_isUnitEnd := by decide +kernel
  isUnitEnd := by decide +kernel

/-- A routine whose marker names its reference on its own line. -/
def inlineRoutine : MarkedRoutine Dialect.java.rules where
  before := []
  marker := "    * x-ms-original-file: a/examples/C.json\n"
  after := []
  opening := "    public static void c() \x7b\n"
  inner := []
  closing := "    \x7d"
  reference := "a/examples/C.json"
  isComment := by decide +kernel
  after_not_isMarker := by decide +kernel
  reference?_eq := by decide +kernel
  isUnitStart := by decide +kernel
  inner_not_isUnitEnd := by decide +kernel
  isUnitEnd := by decide +kernel

/-- Two routines without a line between them, below a marker that no routine follows at once. -/
theorem ofLines_arranged_twoRoutines :
    let lead : List Line := ["     * x-ms-original-file: a/examples/Stray.json\n", "class A \x7b\n"]
    let parts : List (MarkedRoutine Dialect.java.rules × List Line) :=
      [(wrappedRoutine, []), (inlineRoutine, ["// end"])]
    Dialect.java.rules.OpensNone lead ∧ (∀ part ∈ parts, Dialect.java.rules.OpensNone part.2) ∧
      (∀ gap ∈ (lead :: parts.map Prod.snd).dropLast, Dialect.java.rules.EndsOutsideComment gap) ∧
      (ofLines Dialect.java.rules (lead ++ withGapsAfter parts)).units =
        [wrappedRoutine.unitAt 2, inlineRoutine.unitAt 11] ∧
      (ofLines Dialect.java.rules (lead ++ withGapsAfter parts)).prologue = lead ∧
      (ofLines Dialect.java.rules (lead ++ withGapsAfter parts)).epilogue = ["// end"] := by
  intro lead parts
  have hlead : Dialect.java.rules.OpensNone lead := by decide +kernel
  have hgaps : ∀ part ∈ parts, Dialect.java.rules.OpensNone part.2 := by decide +kernel
  have hends : ∀ gap ∈ (lead :: parts.map Prod.snd).dropLast,
      Dialect.java.rules.EndsOutsideComment gap := by decide +kernel
  obtain ⟨hunits, -, hshared⟩ := ofLines_arranged .java lead parts hlead hgaps hends
  obtain ⟨hprologue, hepilogue⟩ := hshared (inlineRoutine, ["// end"]) rfl
  exact ⟨hlead, hgaps, hends, hunits, hprologue, hepilogue⟩

end Sample

end SampleHarvest
