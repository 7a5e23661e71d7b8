import Mathlib.Tactic.SplitIfs
import SampleHarvest.Sample.Segmentation

/-!
# The scan step and the scan loop

A unit found from a position lies at or after it, takes at least one line and ends within the lines.
Every step therefore leaves fewer lines to scan, and as many steps as there are lines are always
enough: the scan stops because no unit is left and never because its steps are used up.
-/

namespace SampleHarvest

namespace DialectRules

variable {rules : DialectRules} {lines : List Line}

/-- The opening line stands at or after the first of the lines, and all that follows it is below. -/
theorem opening?_range {pending? : Option Text} {index : Nat} {opening : Opening}
    (h : rules.opening? pending? index lines = some opening) :
    index ≤ opening.index ∧ opening.index + 1 + opening.below.length = index + lines.length := by
  induction lines generalizing pending? index with
  | nil => simp [opening?] at h
  | cons line below ih =>
      rw [opening?] at h
      split_ifs at h with hmarker hstart
      · obtain ⟨hfirst, hlength⟩ := ih h
        rw [List.length_cons]
        omega
      · obtain rfl := Option.some.inj h
        exact ⟨Nat.le_refl _, by rw [List.length_cons]; dsimp only; omega⟩
      · obtain ⟨hfirst, hlength⟩ := ih h
        rw [List.length_cons]
        omega

theorem opening?_below_suffix {pending? : Option Text} {index : Nat} {opening : Opening}
    (h : rules.opening? pending? index lines = some opening) : opening.below <:+ lines := by
  induction lines generalizing pending? index with
  | nil => cases h
  | cons line below ih =>
      rw [opening?] at h
      split_ifs at h with hmarker hstart
      · exact (ih h).trans (List.suffix_cons line below)
      · obtain rfl := Option.some.inj h
        exact List.suffix_cons line below
      · exact (ih h).trans (List.suffix_cons line below)

/-- The position after a closing line lies after the first of the lines and not beyond their end. -/
theorem closing?_range {index stop : Nat} (h : rules.closing? index lines = some stop) :
    index < stop ∧ stop ≤ index + lines.length := by
  induction lines generalizing index with
  | nil => simp [closing?] at h
  | cons line below ih =>
      rw [closing?] at h
      rw [List.length_cons]
      split_ifs at h with hend
      · obtain rfl := Option.some.inj h
        omega
      · have := ih h
        omega

/-- The lines with a comment at their end are no more than all of them. -/
theorem trailingComments_le (rules : DialectRules) (lines : List Line) :
    rules.trailingComments lines ≤ lines.length := by
  have hlength : lines.reverse.length = lines.length := List.length_reverse
  rw [trailingComments, ← hlength]
  exact (List.takeWhile_sublist _).length_le

/-- All that a scan step does: it finds an opening line and a closing line below it, and goes back
over the comment lines above the opening line if a reference is in force there. -/
theorem nextUnit?_eq_some {start : Nat} {u : SampleUnit} :
    rules.nextUnit? lines start = some u ↔
      ∃ opening stop first, rules.opening? none start (lines.drop start) = some opening ∧
        rules.closing? (opening.index + 1) opening.below = some stop ∧
        first = (if opening.reference?.isSome then
            opening.index - rules.trailingComments ((lines.take opening.index).drop start)
          else opening.index) ∧
        u = ⟨opening.reference?, first, stop, (lines.take stop).drop first⟩ := by
  simp only [nextUnit?, Option.bind_eq_bind, Option.bind_eq_some_iff, Option.pure_def,
    Option.some.injEq]
  constructor
  · rintro ⟨opening, hopening, stop, hstop, rfl⟩
    exact ⟨opening, stop, _, hopening, hstop, rfl, rfl⟩
  · rintro ⟨opening, stop, first, hopening, hstop, rfl, rfl⟩
    exact ⟨opening, hopening, stop, hstop, rfl⟩

/-- A unit found from a position lies at or after it, is not empty and ends within the lines. -/
theorem nextUnit?_range {start : Nat} {u : SampleUnit}
    (h : rules.nextUnit? lines start = some u) :
    start ≤ u.start ∧ u.start < u.stop ∧ u.stop ≤ lines.length := by
  obtain ⟨opening, stop, first, hopening, hstop, hfirst, rfl⟩ := nextUnit?_eq_some.mp h
  obtain ⟨hindex, hbelow⟩ := opening?_range hopening
  obtain ⟨hafter, hwithin⟩ := closing?_range hstop
  have hcomments := trailingComments_le rules ((lines.take opening.index).drop start)
  simp only [List.length_drop, List.length_take] at hbelow hcomments
  dsimp only
  split_ifs at hfirst <;> omega

theorem nextUnit?_body {start : Nat} {u : SampleUnit}
    (h : rules.nextUnit? lines start = some u) : u.body = (lines.take u.stop).drop u.start := by
  obtain ⟨opening, stop, first, hopening, hstop, hfirst, rfl⟩ := nextUnit?_eq_some.mp h
  rfl

/-- A scan from a position that goes on, each step from where the last unit ended, until no unit is
left. -/
inductive ScanRun (rules : DialectRules) (lines : List Line) : Nat → List SampleUnit → Prop where
  | done {cursor : Nat} (h : rules.nextUnit? lines cursor = none) : ScanRun rules lines cursor []
  /-- A unit is found, and the scan goes on after it. -/
  | step {cursor : Nat} {u : SampleUnit} {units : List SampleUnit}
      (h : rules.nextUnit? lines cursor = some u) (rest : ScanRun rules lines u.stop units) :
      ScanRun rules lines cursor (u :: units)

/-- As many steps as there are lines after a position bring the scan to its end. -/
theorem scanFrom_run {steps cursor : Nat} (h : lines.length ≤ cursor + steps) :
    ScanRun rules lines cursor (rules.scanFrom lines steps cursor) := by
  induction steps generalizing cursor with
  | zero =>
      refine ScanRun.done (Option.eq_none_iff_forall_ne_some.mpr fun u hu => ?_)
      have := nextUnit?_range hu
      omega
  | succ steps ih =>
      rw [scanFrom]
      cases hu : rules.nextUnit? lines cursor with
      | none => exact ScanRun.done hu
      | some u =>
          have := nextUnit?_range hu
          exact ScanRun.step hu (ih (by omega))

/-- The scan of a sample ends because no unit is left. -/
theorem scan_run (rules : DialectRules) (lines : List Line) :
    ScanRun rules lines 0 (rules.scan lines) :=
  scanFrom_run (by omega)

/-- A scan can end in one way only. -/
theorem ScanRun.unique {cursor : Nat} {units others : List SampleUnit}
    (h : ScanRun rules lines cursor units) (h' : ScanRun rules lines cursor others) :
    units = others := by
  induction h generalizing others with
  | done hnone =>
      cases h' with
      | done => rfl
      | step hsome => rw [hnone] at hsome; cases hsome
  | step hsome rest ih =>
      cases h' with
      | done hnone => rw [hnone] at hsome; cases hsome
      | step hsome' rest' =>
          obtain rfl := Option.some.inj (hsome.symm.trans hsome')
          rw [ih rest']

theorem scanRun_iff (rules : DialectRules) (lines : List Line) {units : List SampleUnit} :
    ScanRun rules lines 0 units ↔ units = rules.scan lines := by
  constructor
  · exact fun h => h.unique (rules.scan_run lines)
  · rintro rfl
    exact rules.scan_run lines

/-- Each unit of a scan lies in the lines that are left, has these lines, and ends before the next
one begins. -/
theorem ScanRun.ordered {cursor : Nat} {units : List SampleUnit}
    (h : ScanRun rules lines cursor units) :
    (∀ u ∈ units, cursor ≤ u.start ∧ u.start < u.stop ∧ u.stop ≤ lines.length ∧
      u.body = (lines.take u.stop).drop u.start) ∧
    units.Pairwise fun u v => u.stop ≤ v.start := by
  induction h with
  | done => simp
  | step hu rest ih =>
      obtain ⟨hmem, hpairs⟩ := ih
      obtain ⟨hstart, hsome, hstop⟩ := nextUnit?_range hu
      refine ⟨?_, List.pairwise_cons.mpr ⟨fun v hv => (hmem v hv).1, hpairs⟩⟩
      intro v hv
      rcases List.mem_cons.mp hv with rfl | hv
      · exact ⟨hstart, hsome, hstop, nextUnit?_body hu⟩
      · obtain ⟨hafter, hrest⟩ := hmem v hv
        exact ⟨by omega, hrest⟩

end DialectRules

end SampleHarvest
