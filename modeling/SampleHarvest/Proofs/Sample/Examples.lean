import Mathlib.Data.List.Nodup
import SampleHarvest.Proofs.Sample.Partition
import SampleHarvest.Sample.Example

/-!
# The examples of a sample

A valid unit has a marker above its opening line, below the unit before it. So without a marker no
unit is valid, and nothing is lost by not taking such a sample apart. The numbers of examples grow
in the order of the units, and no two examples of a sample have the same number.
-/

namespace SampleHarvest

namespace DialectRules

variable {rules : DialectRules} {lines : List Line}

/-- If another reference comes into force, there is a marker above the opening line. -/
theorem opening?_marker {pending? : Option Text} {index : Nat} {opening : Opening}
    (h : rules.opening? pending? index lines = some opening)
    (hother : opening.reference? ≠ pending?) :
    ∃ i, index ≤ i ∧ i < opening.index ∧
      ∃ line, lines[i - index]? = some line ∧ rules.isMarker line := by
  induction lines generalizing pending? index with
  | nil => cases h
  | cons line below ih =>
      rw [opening?] at h
      split_ifs at h with hmarker hstart
      · have hrange := opening?_range h
        exact ⟨index, Nat.le_refl _, by omega, line, by rw [Nat.sub_self]; rfl, hmarker⟩
      · obtain rfl := Option.some.inj h
        exact absurd rfl hother
      · obtain ⟨i, hafter, hbefore, other, hline, hmarker⟩ := ih h hother
        refine ⟨i, by omega, hbefore, other, ?_, hmarker⟩
        rwa [show i - index = i - (index + 1) + 1 by omega, List.getElem?_cons_succ]

/-- A valid unit has a marker above its end, and not before the position where the step began. -/
theorem nextUnit?_marker {start : Nat} {u : SampleUnit} (h : rules.nextUnit? lines start = some u)
    (hvalid : u.isValid) : ∃ i, start ≤ i ∧ i < u.stop ∧
      ∃ line, lines[i]? = some line ∧ rules.isMarker line := by
  obtain ⟨opening, stop, first, hopening, hstop, -, rfl⟩ := nextUnit?_eq_some.mp h
  have hother : opening.reference? ≠ none := Option.isSome_iff_ne_none.mp hvalid
  obtain ⟨i, hafter, hbefore, line, hline, hmarker⟩ := opening?_marker hopening hother
  have hend := (closing?_range hstop).1
  refine ⟨i, hafter, by dsimp only; omega, line, ?_, hmarker⟩
  rwa [List.getElem?_drop, Nat.add_sub_cancel' hafter] at hline

theorem isAggregated_eq_false_iff :
    rules.isAggregated lines = false ↔ ∀ line ∈ lines, ¬rules.isMarker line := by
  rw [isAggregated, List.any_eq_false]

/-- Without a marker no unit has a reference, wherever the step begins. -/
theorem nextUnit?_reference?_eq_none (hlines : rules.isAggregated lines = false) {start : Nat}
    {u : SampleUnit} (h : rules.nextUnit? lines start = some u) : u.reference? = none := by
  refine Option.not_isSome_iff_eq_none.mp fun hvalid => ?_
  obtain ⟨i, -, -, line, hline, hmarker⟩ := nextUnit?_marker h hvalid
  exact isAggregated_eq_false_iff.mp hlines line (List.mem_of_getElem? hline) hmarker

/-- Every unit of a sample without a marker has no reference. -/
theorem ScanRun.reference?_eq_none (hlines : rules.isAggregated lines = false) {cursor : Nat}
    {units : List SampleUnit} (h : ScanRun rules lines cursor units) :
    ∀ u ∈ units, u.reference? = none := by
  induction h with
  | done => nofun
  | step hnext _ ih =>
      exact List.forall_mem_cons.mpr ⟨nextUnit?_reference?_eq_none hlines hnext, ih⟩

end DialectRules

open DialectRules

variable {rules : DialectRules} {lines : List Line} {symbol : Text}

theorem Sample.units_ofLines_eq_nil (hlines : rules.isAggregated lines = false) :
    (Sample.ofLines rules lines).units = [] := by
  rw [Sample.units_ofLines]
  refine List.filter_eq_nil_iff.mpr fun u hu => ?_
  rw [SampleUnit.isValid, (scan_run rules lines).reference?_eq_none hlines u hu]
  nofun

theorem Sample.examples_ofLines_eq_nil (hlines : rules.isAggregated lines = false) :
    (Sample.ofLines rules lines).examples rules symbol = [] := by
  rw [Sample.examples, Sample.units_ofLines_eq_nil hlines]
  rfl

/-- To look for a marker first hides no example. -/
theorem extractExamples_eq (rules : DialectRules) (text symbol : Text) :
    extractExamples rules text symbol =
      (Sample.ofLines rules (splitLines text)).examples rules symbol := by
  rw [extractExamples]
  split_ifs with h
  · rfl
  · exact (Sample.examples_ofLines_eq_nil (Bool.eq_false_iff.mpr h)).symm

theorem Sample.examples_ascending (sample : Sample) (rules : DialectRules) (symbol : Text) :
    (sample.examples rules symbol).Pairwise fun a b => a.index < b.index := by
  have hsnd : (sample.units.zipIdx.map Prod.snd).Pairwise (· < ·) := by
    rw [List.zipIdx_map_snd]
    exact List.pairwise_lt_range'
  have hnumbers := List.pairwise_map.mp hsnd
  refine List.pairwise_filterMap.mpr (hnumbers.imp fun {a b} hlt first hfirst second hsecond => ?_)
  obtain ⟨reference, -, rfl⟩ := Option.map_eq_some_iff.mp hfirst
  obtain ⟨reference', -, rfl⟩ := Option.map_eq_some_iff.mp hsecond
  exact hlt

/-- An example is published where its reference says. -/
theorem Sample.target_of_mem_examples {sample : Sample} {shown : Example}
    (h : shown ∈ sample.examples rules symbol) :
    shown.target = Target.ofReference shown.reference rules.folderSuffix := by
  obtain ⟨⟨u, index⟩, -, hshown⟩ := List.mem_filterMap.mp h
  obtain ⟨reference, -, rfl⟩ := Option.map_eq_some_iff.mp hshown
  rfl

theorem Sample.eq_of_index {sample : Sample} {a b : Example}
    (ha : a ∈ sample.examples rules symbol) (hb : b ∈ sample.examples rules symbol)
    (hindex : a.index = b.index) : a = b := by
  have hnumbers : ((sample.examples rules symbol).map Example.index).Nodup :=
    List.pairwise_map.mpr ((sample.examples_ascending rules symbol).imp Nat.ne_of_lt)
  exact List.inj_on_of_nodup_map hnumbers ha hb hindex

end SampleHarvest
