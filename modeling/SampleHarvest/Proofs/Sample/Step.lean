import Mathlib.Data.List.TakeWhile
import Mathlib.Data.Set.Basic
import Mathlib.Order.Bounds.Defs
import SampleHarvest.Proofs.Sample.Arrangement

/-!
# What a scan step finds

A scan step is told by positions alone. The opening line is the first one from the start on, the
closing line is the first one below it, and the reference is that of the last marker in between the
start and the opening line. With a reference the unit begins where the comment lines do that end
above the opening line, but not above the start.

Nothing else counts: neither markers and opening lines inside the unit, nor a marker above the last
one, nor a closing line at the opening line itself.
-/

namespace SampleHarvest

def LineAt (test : Line → Bool) (lines : List Line) (position : Nat) : Prop :=
  ∃ line ∈ lines[position]?, test line

variable {lines above below : List Line} {line : Line} {start : Nat} {test : Line → Bool}

theorem getElem?_of_drop (h : lines.drop start = above ++ below) {index : Nat}
    (hindex : index < above.length) : lines[start + index]? = above[index]? := by
  rw [← List.getElem?_drop, h, List.getElem?_append_left hindex]

theorem lineAt_of_drop (h : lines.drop start = above ++ line :: below) :
    LineAt test lines (start + above.length) ↔ test line := by
  have hline : lines[start + above.length]? = some line := by
    rw [← List.getElem?_drop, h]
    simp
  simp [LineAt, hline]

/-- The first line that passes a test parts the lines. -/
theorem isLeast_lineAt_iff {position : Nat} :
    IsLeast {i | start ≤ i ∧ LineAt test lines i} position ↔
      ∃ above line below, lines.drop start = above ++ line :: below ∧
        (∀ other ∈ above, ¬test other) ∧ test line ∧ position = start + above.length := by
  constructor
  · rintro ⟨⟨hstart, line, hline, htest⟩, hleast⟩
    obtain ⟨index, rfl⟩ := Nat.exists_eq_add_of_le hstart
    rw [Option.mem_def, ← List.getElem?_drop] at hline
    obtain ⟨hindex, rfl⟩ := List.getElem?_eq_some_iff.mp hline
    refine ⟨(lines.drop start).take index, (lines.drop start)[index],
      (lines.drop start).drop (index + 1), ?_, ?_, htest, ?_⟩
    · rw [← List.drop_eq_getElem_cons hindex, List.take_append_drop]
    · intro other hother hpasses
      obtain ⟨earlier, hearlier, hother⟩ := List.getElem_of_mem hother
      rw [List.getElem_take] at hother
      rw [List.length_take] at hearlier
      have hthere : LineAt test lines (start + earlier) :=
        ⟨other, by rw [← List.getElem?_drop, ← hother]; simp, hpasses⟩
      have := hleast ⟨Nat.le_add_right _ _, hthere⟩
      omega
    · rw [List.length_take_of_le hindex.le]
  · rintro ⟨above, line, below, hlines, habove, htest, rfl⟩
    refine ⟨⟨Nat.le_add_right _ _, (lineAt_of_drop hlines).mpr htest⟩, ?_⟩
    rintro other ⟨hother, found, hfound, hpasses⟩
    by_contra hearlier
    obtain ⟨index, rfl⟩ := Nat.exists_eq_add_of_le hother
    rw [getElem?_of_drop hlines (by omega)] at hfound
    exact habove found (List.mem_of_getElem? hfound) hpasses

namespace DialectRules

variable {rules : DialectRules}

theorem closing?_eq_some_iff {index stop : Nat} :
    rules.closing? index lines = some stop ↔
      ∃ inner closing below, lines = inner ++ closing :: below ∧
        (∀ line ∈ inner, ¬rules.isUnitEnd line) ∧ rules.isUnitEnd closing ∧
        stop = index + inner.length + 1 := by
  constructor
  · intro h
    induction lines generalizing index with
    | nil => cases h
    | cons line below ih =>
        rw [closing?] at h
        split_ifs at h with hend
        · obtain rfl := Option.some.inj h
          exact ⟨[], line, below, rfl, List.forall_mem_nil _, hend, rfl⟩
        · obtain ⟨inner, closing, rest, rfl, hinner, hclosing, rfl⟩ := ih h
          refine ⟨line :: inner, closing, rest, rfl, List.forall_mem_cons.mpr ⟨hend, hinner⟩,
            hclosing, ?_⟩
          rw [List.length_cons]
          omega
  · rintro ⟨inner, closing, below, rfl, hinner, hclosing, rfl⟩
    exact closing?_append hinner hclosing index below

theorem isGreatest_marker_iff {stop position : Nat} :
    IsGreatest {m | start ≤ m ∧ m < stop ∧ LineAt rules.isMarker lines m} position ↔
      rules.IsLastMarker lines start stop position := by
  constructor
  · rintro ⟨⟨hstart, hstop, hmarker⟩, hgreatest⟩
    refine ⟨hstart, hstop, hmarker, fun later hlater hlt line hline hismarker => ?_⟩
    have := hgreatest ⟨by omega, hlt, line, hline, hismarker⟩
    omega
  · intro h
    refine ⟨⟨h.start_le, h.lt_stop, h.isMarker⟩, ?_⟩
    rintro other ⟨-, hother, line, hline, hismarker⟩
    by_contra hlater
    exact h.later_not_isMarker other (by omega) hother line hline hismarker

theorem exists_trailingComments (rules : DialectRules) (lines : List Line) :
    ∃ front comment, lines = front ++ comment ∧ comment.length = rules.trailingComments lines ∧
      (∀ line ∈ comment, rules.isComment line) ∧ rules.EndsOutsideComment front := by
  refine ⟨(lines.reverse.dropWhile rules.isComment).reverse,
    (lines.reverse.takeWhile rules.isComment).reverse, ?_, by simp [trailingComments], ?_, ?_⟩
  · rw [← List.reverse_append, List.takeWhile_append_dropWhile, List.reverse_reverse]
  · intro line hline
    exact List.mem_takeWhile_imp (List.mem_reverse.mp hline)
  · intro line hline
    rw [List.getLast?_reverse] at hline
    have hnone := List.head?_dropWhile_not rules.isComment lines.reverse
    rw [hline] at hnone
    simpa using hnone

/-- Going back over comment lines ends at the first position from the start on from which there are
only comment lines. -/
theorem isLeast_trailingComments {stop : Nat}
    (hlines : lines.drop start = above ++ below) (hstop : stop = start + above.length) :
    IsLeast {k | start ≤ k ∧ ∀ i, k ≤ i → i < stop → LineAt rules.isComment lines i}
      (stop - rules.trailingComments above) := by
  obtain ⟨front, comment, rfl, hlength, hcomment, hfront⟩ := exists_trailingComments rules above
  rw [List.length_append] at hstop
  have hfirst : stop - rules.trailingComments (front ++ comment) = start + front.length := by omega
  rw [hfirst]
  refine ⟨⟨Nat.le_add_right _ _, fun i hi hlt => ?_⟩, ?_⟩
  · obtain ⟨index, rfl⟩ := Nat.exists_eq_add_of_le hi
    have hindex : index < comment.length := by omega
    refine ⟨comment[index], ?_, hcomment _ (List.getElem_mem hindex)⟩
    rw [Nat.add_assoc, getElem?_of_drop hlines (by rw [List.length_append]; omega),
      List.getElem?_append_right (Nat.le_add_right _ _), Nat.add_sub_cancel_left]
    exact List.getElem?_eq_getElem hindex
  · rintro k ⟨hk, hcomments⟩
    by_contra hlt
    -- The last line in front of the comment is no comment line.
    obtain ⟨line, hline⟩ : ∃ line, front.getLast? = some line := by
      rw [← Option.isSome_iff_exists, List.getLast?_isSome]
      rintro rfl
      exact hlt hk
    have hlast := List.getLast?_eq_getElem? ▸ hline
    have hpos : 0 < front.length := by omega
    obtain ⟨other, hother, hiscomment⟩ := hcomments (start + (front.length - 1)) (by omega) (by omega)
    rw [getElem?_of_drop hlines (by rw [List.length_append]; omega),
      List.getElem?_append_left (by omega), hlast] at hother
    obtain rfl := Option.some.inj hother
    exact hfront _ hline hiscomment

/-! ### The two lines that bound a unit -/

theorem isLeast_of_opening? (hrules : rules.TellsLinesApart) {opening : Opening}
    (h : rules.opening? none start (lines.drop start) = some opening) :
    IsLeast {s | start ≤ s ∧ LineAt rules.isUnitStart lines s} opening.index ∧
      lines.drop (opening.index + 1) = opening.below := by
  obtain ⟨above, line, hlines, habove, hline, hindex, -⟩ := (opening?_eq_some_iff hrules).mp h
  refine ⟨isLeast_lineAt_iff.mpr ⟨above, line, opening.below, hlines, habove, hline, hindex⟩, ?_⟩
  rw [hindex, Nat.add_assoc, ← List.drop_drop, hlines]
  simp

theorem exists_opening? (hrules : rules.TellsLinesApart) {s : Nat}
    (h : IsLeast {s | start ≤ s ∧ LineAt rules.isUnitStart lines s} s) :
    ∃ opening, rules.opening? none start (lines.drop start) = some opening ∧
      opening.index = s := by
  obtain ⟨above, line, below, hlines, habove, hline, hindex⟩ := isLeast_lineAt_iff.mp h
  exact ⟨⟨rules.pendingAfter none above (line :: below), s, below⟩,
    (opening?_eq_some_iff hrules).mpr ⟨above, line, hlines, habove, hline, hindex, rfl⟩, rfl⟩

theorem closing?_eq_some_iff_isLeast {s stop : Nat} (hbelow : lines.drop (s + 1) = below) :
    rules.closing? (s + 1) below = some stop ↔
      ∃ e, IsLeast {e | s < e ∧ LineAt rules.isUnitEnd lines e} e ∧ stop = e + 1 := by
  subst hbelow
  rw [closing?_eq_some_iff]
  constructor
  · rintro ⟨inner, closing, below, hlines, hinner, hclosing, rfl⟩
    exact ⟨_, isLeast_lineAt_iff.mpr ⟨inner, closing, below, hlines, hinner, hclosing, rfl⟩, rfl⟩
  · rintro ⟨e, hleast, rfl⟩
    obtain ⟨inner, closing, below, hlines, hinner, hclosing, rfl⟩ := isLeast_lineAt_iff.mp hleast
    exact ⟨inner, closing, below, hlines, hinner, hclosing, rfl⟩

end DialectRules

namespace Sample

open DialectRules

/-- **The exact meaning of a scan step.** In every dialect, for all lines and every start, there is
no unit exactly if no line from the start on opens one or no line below the first of these closes
one. Otherwise the unit ends at the first such closing line. Its reference is that of the last
marker above the opening line, and none if there is no marker or the last one has none. With a
reference it begins at the first position from which there are only comment lines down to the
opening line, and without one at the opening line. -/
theorem nextUnit?_exact (dialect : Dialect) (lines : List Line) (start : Nat) :
    let rules := dialect.rules
    let opens := {s | start ≤ s ∧ LineAt rules.isUnitStart lines s}
    let closes (s : Nat) := {e | s < e ∧ LineAt rules.isUnitEnd lines e}
    let marks (s : Nat) := {m | start ≤ m ∧ m < s ∧ LineAt rules.isMarker lines m}
    let leads (s : Nat) := {k | start ≤ k ∧ ∀ i, k ≤ i → i < s → LineAt rules.isComment lines i}
    (rules.nextUnit? lines start = none ↔ ¬∃ s e, IsLeast opens s ∧ IsLeast (closes s) e) ∧
    ∀ s e, IsLeast opens s → IsLeast (closes s) e →
      ∃ u, rules.nextUnit? lines start = some u ∧ u.stop = e + 1 ∧
        (marks s = ∅ → u.reference? = none) ∧
        (∀ m, IsGreatest (marks s) m → u.reference? = rules.referenceAt? lines m) ∧
        (u.reference? = none → u.start = s) ∧
        (u.reference?.isSome → IsLeast (leads s) u.start) ∧
        u.body = (lines.take (e + 1)).drop u.start := by
  intro rules opens closes marks leads
  have hrules := dialect.tellsLinesApart
  have hfound : ∀ s e, IsLeast opens s → IsLeast (closes s) e →
      ∃ u, rules.nextUnit? lines start = some u ∧ u.stop = e + 1 ∧
        (marks s = ∅ → u.reference? = none) ∧
        (∀ m, IsGreatest (marks s) m → u.reference? = rules.referenceAt? lines m) ∧
        (u.reference? = none → u.start = s) ∧
        (u.reference?.isSome → IsLeast (leads s) u.start) ∧
        u.body = (lines.take (e + 1)).drop u.start := by
    intro s e hs he
    obtain ⟨opening, hopening, rfl⟩ := exists_opening? hrules hs
    obtain ⟨-, hbelow⟩ := isLeast_of_opening? hrules hopening
    have hclosing := (closing?_eq_some_iff_isLeast hbelow).mpr ⟨e, he, rfl⟩
    obtain ⟨above, line, hlines, -, -, hindex, -⟩ := (opening?_eq_some_iff hrules).mp hopening
    have habove : (lines.take opening.index).drop start = above := by
      rw [hindex, List.drop_take, Nat.add_sub_cancel_left, hlines, List.take_left]
    refine ⟨_, nextUnit?_eq_some.mpr ⟨opening, e + 1, _, hopening, hclosing, rfl, rfl⟩, rfl, ?_, ?_,
      ?_, ?_, rfl⟩
    · intro hnone
      by_contra hsome
      obtain ⟨m, hm⟩ := exists_isLastMarker hrules hopening (Option.isSome_iff_ne_none.mpr hsome)
      exact (Set.eq_empty_iff_forall_notMem.mp hnone m) (isGreatest_marker_iff.mpr hm).1
    · intro m hm
      exact ((isGreatest_marker_iff.mp hm).referenceAt?_eq hrules hopening).symm
    · intro hnone
      simp [show opening.reference? = none from hnone]
    · intro hsome
      simp only [show opening.reference?.isSome = true from hsome, if_true, habove]
      exact isLeast_trailingComments hlines hindex
  refine ⟨?_, hfound⟩
  constructor
  · rintro hnone ⟨s, e, hs, he⟩
    obtain ⟨u, hu, -⟩ := hfound s e hs he
    rw [hnone] at hu
    cases hu
  · intro hno
    refine Option.eq_none_iff_forall_ne_some.mpr fun u hu => hno ?_
    obtain ⟨opening, stop, first, hopening, hclosing, -, -⟩ := nextUnit?_eq_some.mp hu
    obtain ⟨hs, hbelow⟩ := isLeast_of_opening? hrules hopening
    obtain ⟨e, he, -⟩ := (closing?_eq_some_iff_isLeast hbelow).mp hclosing
    exact ⟨opening.index, e, hs, he⟩

/-- A marker without a reference hides the marker above it. -/
example :
    let lines : List Line := ["// x-ms-original-file: a/examples/A.json\n",
      "// x-ms-original-file:\n", "func A()\n", "\x7d\n"]
    Dialect.go.rules.nextUnit? lines 0 = some ⟨none, 2, 4, lines.drop 2⟩ := by
  decide +kernel

end Sample

end SampleHarvest
