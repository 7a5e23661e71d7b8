import SampleHarvest.Proofs.Sample.Opening
import SampleHarvest.Proofs.Sample.Partition

/-!
# Routines below comments

A routine stands below a comment with a marker and is closed by the first line that can close it.
Wherever such a routine stands behind lines that open no unit and end outside a comment, a scan step
finds it. The last marker of its comment decides whether the unit is valid, and only a valid unit
takes the comment.
-/

namespace SampleHarvest

def DialectRules.EndsOutsideComment (rules : DialectRules) (lines : List Line) : Prop :=
  ∀ line ∈ lines.getLast?, ¬rules.isComment line

instance (rules : DialectRules) (lines : List Line) : Decidable (rules.EndsOutsideComment lines) :=
  inferInstanceAs (Decidable (∀ line ∈ lines.getLast?, ¬rules.isComment line))

/-- A routine below a comment with a marker. -/
structure CommentedRoutine (rules : DialectRules) where
  comment : List Line
  opening : Line
  /-- The lines between the opening and the closing line. -/
  inner : List Line
  closing : Line
  isComment : ∀ line ∈ comment, rules.isComment line
  exists_isMarker : ∃ line ∈ comment, rules.isMarker line
  isUnitStart : rules.isUnitStart opening
  inner_not_isUnitEnd : ∀ line ∈ inner, ¬rules.isUnitEnd line
  isUnitEnd : rules.isUnitEnd closing

namespace CommentedRoutine

variable {rules : DialectRules} {parts : List (CommentedRoutine rules × List Line)}

def reference? (routine : CommentedRoutine rules) : Option Text :=
  rules.pendingAfter none routine.comment []

def lines (routine : CommentedRoutine rules) : List Line :=
  routine.comment ++ routine.opening :: (routine.inner ++ [routine.closing])

/-- How many lines of the comment the unit leaves out. -/
def leftOut (routine : CommentedRoutine rules) : Nat :=
  if routine.reference?.isSome then 0 else routine.comment.length

/-- The unit that the routine is if its first line stands at a position. -/
def unitAt (routine : CommentedRoutine rules) (position : Nat) : SampleUnit where
  reference? := routine.reference?
  start := position + routine.leftOut
  stop := position + routine.lines.length
  body := routine.lines.drop routine.leftOut

/-- The units of routines with a gap after each of them, the first of which stands at a position. -/
def unitsAt : (position : Nat) → (parts : List (CommentedRoutine rules × List Line)) →
    List SampleUnit
  | _, [] => []
  | position, (routine, gap) :: parts =>
    routine.unitAt position :: unitsAt (position + routine.lines.length + gap.length) parts

def withGapsAfter (parts : List (CommentedRoutine rules × List Line)) : List Line :=
  parts.flatMap fun (routine, gap) => routine.lines ++ gap

theorem length_lines (routine : CommentedRoutine rules) :
    routine.lines.length = routine.comment.length + 1 + routine.inner.length + 1 := by
  simp [lines]
  omega

theorem leftOut_le (routine : CommentedRoutine rules) :
    routine.leftOut ≤ routine.comment.length := by
  rw [leftOut]
  split_ifs <;> omega

theorem not_isComment_opening (hrules : rules.TellsLinesApart) (routine : CommentedRoutine rules) :
    ¬rules.isComment routine.opening := fun hcomment =>
  hrules.not_isUnitStart hcomment routine.isUnitStart

/-- A comment opens no unit, and neither do lines that open none with a comment below them. -/
theorem opensNone (hrules : rules.TellsLinesApart) (routine : CommentedRoutine rules)
    {lead : List Line} (hlead : rules.OpensNone lead) :
    rules.OpensNone (lead ++ routine.comment) := by
  intro line hline
  rcases List.mem_append.mp hline with hline | hline
  · exact hlead line hline
  · exact hrules.not_isUnitStart (routine.isComment line hline)

/-- The reference in force at the opening line is that of the comment, whatever markers stand above
the comment. -/
theorem pendingAfter_comment (hrules : rules.TellsLinesApart) (routine : CommentedRoutine rules)
    (pending? : Option Text) (lead below : List Line) :
    rules.pendingAfter pending? (lead ++ routine.comment) (routine.opening :: below) =
      routine.reference? := by
  rw [DialectRules.pendingAfter_append,
    DialectRules.pendingAfter_eq_of_isMarker routine.exists_isMarker _ none,
    DialectRules.pendingAfter_cons (routine.not_isComment_opening hrules), reference?]

/-- A scan step over lines that open no unit and end outside a comment finds the routine below
them. -/
theorem nextUnit?_eq (hrules : rules.TellsLinesApart) (routine : CommentedRoutine rules)
    {lead : List Line} (hlead : rules.OpensNone lead) (hend : rules.EndsOutsideComment lead)
    (front rest : List Line) :
    rules.nextUnit? (front ++ (lead ++ (routine.lines ++ rest))) front.length =
      some (routine.unitAt (front.length + lead.length)) := by
  have hlength := routine.length_lines
  have hleft := routine.leftOut_le
  have hdrop : (front ++ (lead ++ (routine.lines ++ rest))).drop front.length =
      (lead ++ routine.comment) ++
        routine.opening :: (routine.inner ++ routine.closing :: rest) := by
    simp [lines]
  have habove : ((front ++ (lead ++ (routine.lines ++ rest))).take
      (front.length + (lead ++ routine.comment).length)).drop front.length =
        lead ++ routine.comment := by
    rw [List.drop_take, Nat.add_sub_cancel_left, hdrop, List.take_left]
  have hbody : ((front ++ (lead ++ (routine.lines ++ rest))).take
      (front.length + lead.length + routine.lines.length)).drop
        (front.length + lead.length + routine.leftOut) = routine.lines.drop routine.leftOut := by
    rw [← List.append_assoc, ← List.append_assoc, ← List.length_append, ← List.length_append,
      List.take_left, ← List.drop_drop, List.drop_left]
  have htrailing : rules.trailingComments (lead ++ routine.comment) = routine.comment.length :=
    DialectRules.trailingComments_append routine.isComment hend
  refine DialectRules.nextUnit?_eq_some.mpr
    ⟨⟨routine.reference?, front.length + (lead ++ routine.comment).length,
      routine.inner ++ routine.closing :: rest⟩,
      front.length + lead.length + routine.lines.length,
      front.length + lead.length + routine.leftOut, ?_, ?_, ?_, ?_⟩
  · rw [hdrop]
    refine (DialectRules.opening?_eq_some_iff hrules).mpr ⟨_, routine.opening, rfl,
      routine.opensNone hrules hlead, routine.isUnitStart, rfl, ?_⟩
    exact (routine.pendingAfter_comment hrules none lead _).symm
  · rw [DialectRules.closing?_append routine.inner_not_isUnitEnd routine.isUnitEnd]
    simp only [List.length_append, hlength, Option.some.injEq]
    omega
  · dsimp only
    rw [habove, htrailing, leftOut, List.length_append]
    split_ifs <;> omega
  · rw [hbody, unitAt]

/-- The scan of routines with gaps finds each of them. -/
theorem scanRun (hrules : rules.TellsLinesApart) (front lead : List Line)
    (parts : List (CommentedRoutine rules × List Line)) (hlead : rules.OpensNone lead)
    (hgaps : ∀ part ∈ parts, rules.OpensNone part.2)
    (hends : ∀ gap ∈ (lead :: parts.map Prod.snd).dropLast, rules.EndsOutsideComment gap) :
    rules.ScanRun (front ++ (lead ++ withGapsAfter parts)) front.length
      (unitsAt (front.length + lead.length) parts) := by
  -- By induction on the routines: the gap after one of them is the lead of the next.
  induction parts generalizing front lead with
  | nil =>
      refine DialectRules.ScanRun.done ?_
      have hnone := DialectRules.opening?_eq_none hrules hlead none front.length
      simp [DialectRules.nextUnit?, withGapsAfter, hnone]
  | cons part parts ih =>
      obtain ⟨routine, gap⟩ := part
      rw [List.map_cons, List.dropLast_cons_cons] at hends
      obtain ⟨hend, hrest⟩ := List.forall_mem_cons.mp hends
      obtain ⟨hgap, hgaps⟩ := List.forall_mem_cons.mp hgaps
      have hlines : front ++ (lead ++ withGapsAfter ((routine, gap) :: parts)) =
          front ++ (lead ++ (routine.lines ++ (gap ++ withGapsAfter parts))) := by
        simp [withGapsAfter]
      have hnext := ih (front ++ lead ++ routine.lines) gap hgap hgaps hrest
      simp only [List.length_append, List.append_assoc] at hnext
      rw [← Nat.add_assoc] at hnext
      rw [hlines, unitsAt]
      exact DialectRules.ScanRun.step (routine.nextUnit?_eq hrules hlead hend front _) hnext

end CommentedRoutine

end SampleHarvest
