import Mathlib.Data.List.Induction
import SampleHarvest.Proofs.Dialect.Lines
import SampleHarvest.Proofs.Sample.Scan

/-!
# The forward scan

What a scan step finds going forward is told by the lines it passes: the opening line is the first
one of its kind, and the reference in force there is that of the last marker above it, or the one
that was in force before if there is no marker. Lines below the last comment line do not change a
reference.
-/

namespace SampleHarvest

namespace DialectRules

variable {rules : DialectRules} {above below : List Line}

def OpensNone (rules : DialectRules) (lines : List Line) : Prop :=
  ∀ line ∈ lines, ¬rules.isUnitStart line

instance (lines : List Line) : Decidable (rules.OpensNone lines) :=
  inferInstanceAs (Decidable (∀ line ∈ lines, ¬rules.isUnitStart line))

/-- The reference in force after the lines above, which have others below them. -/
def pendingAfter (rules : DialectRules) : (pending? : Option Text) → (above below : List Line) →
    Option Text
  | pending?, [], _ => pending?
  | pending?, line :: above, below =>
    rules.pendingAfter
      (if rules.isMarker line then rules.reference? line (above ++ below) else pending?) above below

theorem pendingAfter_append (pending? : Option Text) (above between below : List Line) :
    rules.pendingAfter pending? (above ++ between) below =
      rules.pendingAfter (rules.pendingAfter pending? above (between ++ below)) between below := by
  induction above generalizing pending? with
  | nil => rfl
  | cons line above ih => simp only [List.cons_append, pendingAfter, ih, List.append_assoc]

/-- Without a marker the reference in force stays the one that it was. -/
theorem pendingAfter_of_not_isMarker (h : ∀ line ∈ above, ¬rules.isMarker line)
    (pending? : Option Text) (below : List Line) :
    rules.pendingAfter pending? above below = pending? := by
  induction above with
  | nil => rfl
  | cons line above ih =>
      rw [pendingAfter, if_neg (h line List.mem_cons_self)]
      exact ih fun other hother => h other (List.mem_cons_of_mem _ hother)

/-- The last marker decides the reference, whatever was in force before. -/
theorem pendingAfter_of_isMarker {marker : Line} {after : List Line}
    (hmarker : rules.isMarker marker) (hafter : ∀ line ∈ after, ¬rules.isMarker line)
    (pending? : Option Text) (before below : List Line) :
    rules.pendingAfter pending? (before ++ marker :: after) below =
      rules.reference? marker (after ++ below) := by
  rw [pendingAfter_append, pendingAfter, if_pos hmarker, pendingAfter_of_not_isMarker hafter]

/-- A reference in force where none was before comes from the last marker. -/
theorem exists_of_pendingAfter_isSome (h : (rules.pendingAfter none above below).isSome) :
    ∃ before marker after, above = before ++ marker :: after ∧ rules.isMarker marker ∧
      (∀ line ∈ after, ¬rules.isMarker line) ∧
      rules.pendingAfter none above below = rules.reference? marker (after ++ below) := by
  induction above using List.reverseRecOn generalizing below with
  | nil => cases h
  | append_singleton above line ih =>
      by_cases hmarker : rules.isMarker line
      · have hnone : ∀ other ∈ ([] : List Line), ¬rules.isMarker other := by simp
        exact ⟨above, line, [], rfl, hmarker, hnone, pendingAfter_of_isMarker hmarker hnone _ _ _⟩
      · have hlast : ∀ other ∈ [line], ¬rules.isMarker other := by simpa using hmarker
        rw [pendingAfter_append, pendingAfter_of_not_isMarker hlast] at h ⊢
        obtain ⟨before, marker, after, rfl, hbefore, hafter, heq⟩ := ih h
        refine ⟨before, marker, after ++ [line], by simp, hbefore, ?_, by simpa using heq⟩
        intro other hother
        rcases List.mem_append.mp hother with hother | hother
        · exact hafter other hother
        · exact hlast other hother

theorem wrappedReference_append {line : Line} (hline : rules.endsReference line)
    (above below : List Line) :
    rules.wrappedReference (above ++ line :: below) = rules.wrappedReference above := by
  induction above with
  | nil => simp [wrappedReference, hline]
  | cons other above ih => simp only [List.cons_append, wrappedReference, ih]

/-- The reference of a marker is told by the comment that the marker stands in. -/
theorem reference?_append {line : Line} (hline : ¬rules.isComment line) (marker : Line)
    (after below : List Line) :
    rules.reference? marker (after ++ line :: below) = rules.reference? marker after := by
  have hends : rules.endsReference line := by simp [endsReference, hline]
  simp only [reference?, wrappedReference_append hends]

/-- A reference does not depend on what stands behind an opening line, which is no comment. -/
theorem pendingAfter_cons {line : Line} (hline : ¬rules.isComment line) (pending? : Option Text)
    (above below : List Line) :
    rules.pendingAfter pending? above (line :: below) = rules.pendingAfter pending? above [] := by
  induction above generalizing pending? with
  | nil => rfl
  | cons marker above ih =>
      rw [pendingAfter, pendingAfter, ih, reference?_append hline, List.append_nil]

/-- With a marker it does not matter which reference was in force before. -/
theorem pendingAfter_eq_of_isMarker (h : ∃ line ∈ above, rules.isMarker line)
    (pending? other? : Option Text) (below : List Line) :
    rules.pendingAfter pending? above below = rules.pendingAfter other? above below := by
  induction above generalizing pending? other? with
  | nil => simp at h
  | cons line above ih =>
      rw [pendingAfter, pendingAfter]
      by_cases hmarker : rules.isMarker line
      · rw [if_pos hmarker, if_pos hmarker]
      · exact ih (by simpa [hmarker] using h) _ _

theorem opening?_append (habove : rules.OpensNone above) (pending? : Option Text)
    (index : Nat) (below : List Line) :
    rules.opening? pending? index (above ++ below) =
      rules.opening? (rules.pendingAfter pending? above below) (index + above.length) below := by
  induction above generalizing pending? index with
  | nil => rfl
  | cons line above ih =>
      have hrest : rules.OpensNone above := fun other hother =>
        habove other (List.mem_cons_of_mem _ hother)
      have hline := habove line List.mem_cons_self
      have hlength : index + (line :: above).length = index + 1 + above.length := by
        rw [List.length_cons]
        omega
      rw [List.cons_append, opening?, pendingAfter, hlength]
      by_cases hmarker : rules.isMarker line
      · rw [if_pos hmarker, if_pos hmarker, ih hrest]
      · rw [if_neg hmarker, if_neg hmarker, if_neg hline, ih hrest]

/-- All that the forward scan finds: the first opening line, with the reference in force there. -/
theorem opening?_eq_some_iff (hrules : rules.TellsLinesApart) {pending? : Option Text} {index : Nat}
    {lines : List Line} {opening : Opening} :
    rules.opening? pending? index lines = some opening ↔
      ∃ above line, lines = above ++ line :: opening.below ∧ rules.OpensNone above ∧
        rules.isUnitStart line ∧ opening.index = index + above.length ∧
        opening.reference? = rules.pendingAfter pending? above (line :: opening.below) := by
  constructor
  · intro h
    induction lines generalizing pending? index with
    | nil => cases h
    | cons line below ih =>
        rw [opening?] at h
        split_ifs at h with hmarker hstart
        · obtain ⟨above, found, rfl, habove, hfound, hindex, hreference⟩ := ih h
          have hline := hrules.not_isUnitStart (hrules.isComment_of_isMarker hmarker)
          refine ⟨line :: above, found, rfl, List.forall_mem_cons.mpr ⟨hline, habove⟩, hfound,
            by rw [hindex, List.length_cons]; omega, ?_⟩
          rw [pendingAfter, if_pos hmarker, hreference]
        · obtain rfl := Option.some.inj h
          exact ⟨[], line, rfl, List.forall_mem_nil _, hstart, rfl, rfl⟩
        · obtain ⟨above, found, rfl, habove, hfound, hindex, hreference⟩ := ih h
          refine ⟨line :: above, found, rfl, List.forall_mem_cons.mpr ⟨hstart, habove⟩, hfound,
            by rw [hindex, List.length_cons]; omega, ?_⟩
          rw [pendingAfter, if_neg hmarker, hreference]
  · rintro ⟨above, line, rfl, habove, hline, hindex, hreference⟩
    have hmarker : ¬rules.isMarker line := fun hmarker =>
      hrules.not_isUnitStart (hrules.isComment_of_isMarker hmarker) hline
    rw [opening?_append habove, opening?, if_neg hmarker, if_pos hline, ← hindex,
      ← hreference]

theorem opening?_eq_none (hrules : rules.TellsLinesApart) {lines : List Line}
    (hlines : rules.OpensNone lines) (pending? : Option Text) (index : Nat) :
    rules.opening? pending? index lines = none := by
  refine Option.eq_none_iff_forall_ne_some.mpr fun opening hopening => ?_
  obtain ⟨above, line, rfl, -, hline, -⟩ := (opening?_eq_some_iff hrules).mp hopening
  exact hlines line (List.mem_append_right above List.mem_cons_self) hline

structure IsLastMarker (rules : DialectRules) (lines : List Line) (start stop position : Nat) :
    Prop where
  start_le : start ≤ position
  lt_stop : position < stop
  isMarker : ∃ line ∈ lines[position]?, rules.isMarker line
  later_not_isMarker : ∀ later, position < later → later < stop →
    ∀ line ∈ lines[later]?, ¬rules.isMarker line

theorem isLastMarker_iff {lines : List Line} {start position : Nat}
    (hlines : lines.drop start = above ++ below) :
    rules.IsLastMarker lines start (start + above.length) position ↔
      ∃ before marker after, above = before ++ marker :: after ∧ position = start + before.length ∧
        rules.isMarker marker ∧ ∀ line ∈ after, ¬rules.isMarker line := by
  have hget : ∀ index, index < above.length → lines[start + index]? = above[index]? := by
    intro index hindex
    rw [← List.getElem?_drop, hlines, List.getElem?_append_left hindex]
  constructor
  · rintro ⟨hstart, hstop, ⟨marker, hmarker, hismarker⟩, hlater⟩
    obtain ⟨index, rfl⟩ := Nat.exists_eq_add_of_le hstart
    have hindex : index < above.length := by omega
    rw [hget index hindex] at hmarker
    obtain rfl : above[index] = marker := by simpa [hindex] using hmarker
    refine ⟨above.take index, above[index], above.drop (index + 1), ?_, by simp; omega,
      hismarker, ?_⟩
    · rw [← List.drop_eq_getElem_cons hindex, List.take_append_drop]
    · intro line hline
      obtain ⟨offset, hoffset⟩ := List.mem_iff_getElem?.mp hline
      rw [List.getElem?_drop] at hoffset
      have hbound := (List.getElem?_eq_some_iff.mp hoffset).1
      refine hlater (start + (index + 1 + offset)) (by omega) (by omega) line ?_
      rw [hget _ hbound, hoffset]
      rfl
  · rintro ⟨before, marker, after, rfl, rfl, hmarker, hafter⟩
    refine ⟨by omega, by simp, ⟨marker, ?_, hmarker⟩, ?_⟩
    · rw [hget _ (by simp), List.getElem?_append_right (Nat.le_refl _), Nat.sub_self]
      rfl
    · intro later hlater hstop line hline
      obtain ⟨index, rfl⟩ : ∃ index, later = start + before.length + 1 + index :=
        Nat.exists_eq_add_of_le hlater
      have hwhere : start + before.length + 1 + index = start + (before.length + (index + 1)) := by
        omega
      rw [hwhere, hget _ (by omega), List.getElem?_append_right (by omega),
        Nat.add_sub_cancel_left, List.getElem?_cons_succ] at hline
      exact hafter line (List.mem_of_getElem? hline)

/-- A reference in force at an opening line comes from a marker. -/
theorem exists_isLastMarker (hrules : rules.TellsLinesApart) {lines : List Line} {start : Nat}
    {opening : Opening}
    (hopening : rules.opening? none start (lines.drop start) = some opening)
    (hsome : opening.reference?.isSome) :
    ∃ position, rules.IsLastMarker lines start opening.index position := by
  obtain ⟨above, line, hlines, -, -, hindex, hreference⟩ :=
    (opening?_eq_some_iff hrules).mp hopening
  rw [hreference] at hsome
  obtain ⟨before, marker, after, habove, hmarker, hafter, -⟩ := exists_of_pendingAfter_isSome hsome
  rw [hindex]
  exact ⟨start + before.length, (isLastMarker_iff hlines).mpr
    ⟨before, marker, after, habove, rfl, hmarker, hafter⟩⟩

theorem IsLastMarker.referenceAt?_eq (hrules : rules.TellsLinesApart) {lines : List Line}
    {start position : Nat} {opening : Opening}
    (hopening : rules.opening? none start (lines.drop start) = some opening)
    (h : rules.IsLastMarker lines start opening.index position) :
    rules.referenceAt? lines position = opening.reference? := by
  obtain ⟨above, line, hlines, -, -, hindex, hreference⟩ :=
    (opening?_eq_some_iff hrules).mp hopening
  rw [hindex] at h
  obtain ⟨before, marker, after, rfl, rfl, hmarker, hafter⟩ := (isLastMarker_iff hlines).mp h
  have hdrop : lines.drop (start + before.length) = marker :: (after ++ line :: opening.below) := by
    rw [← List.drop_drop, hlines, List.append_assoc, List.drop_left, List.cons_append]
  rw [hreference, pendingAfter_of_isMarker hmarker hafter, referenceAt?, hdrop]

theorem closing?_append {inner : List Line} {closing : Line}
    (hinner : ∀ line ∈ inner, ¬rules.isUnitEnd line) (hclosing : rules.isUnitEnd closing)
    (index : Nat) (below : List Line) :
    rules.closing? index (inner ++ closing :: below) = some (index + inner.length + 1) := by
  induction inner generalizing index with
  | nil => rw [List.nil_append, closing?, if_pos hclosing, List.length_nil, Nat.add_zero]
  | cons line inner ih =>
      rw [List.cons_append, closing?, if_neg (hinner line List.mem_cons_self),
        ih fun other hother => hinner other (List.mem_cons_of_mem _ hother)]
      rw [List.length_cons]
      congr 1
      omega

/-- The lines with a comment at their end are counted back to the last other line. -/
theorem trailingComments_append {comment : List Line}
    (hcomment : ∀ line ∈ comment, rules.isComment line)
    (habove : ∀ line ∈ above.getLast?, ¬rules.isComment line) :
    rules.trailingComments (above ++ comment) = comment.length := by
  have hreverse : ∀ line ∈ comment.reverse, rules.isComment line := by simpa using hcomment
  have hstop : above.reverse.takeWhile rules.isComment = [] := by
    rcases List.eq_nil_or_concat above with rfl | ⟨front, last, rfl⟩
    · rfl
    · have hlast : ¬rules.isComment last := habove last (by simp)
      simp [hlast]
  rw [trailingComments, List.reverse_append, List.takeWhile_append_of_pos hreverse, hstop,
    List.append_nil, List.length_reverse]

end DialectRules

end SampleHarvest
