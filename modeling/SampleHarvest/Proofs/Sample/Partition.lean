import Mathlib.Data.List.Chain
import SampleHarvest.Proofs.Sample.Scan
import SampleHarvest.Proofs.Text.Lines

/-!
# Samples lose no line

The parts of a sample, put back in their order with the lines between the units, are all of its
lines. Without those lines they are the whole text exactly if each unit begins where the one before
it ends.
-/

namespace SampleHarvest

def linesBetween (lines : List Line) (start stop : Nat) : List Line := (lines.take stop).drop start

theorem linesBetween_append {lines : List Line} {a b c : Nat} (hab : a ≤ b) (hbc : b ≤ c) :
    linesBetween lines a b ++ linesBetween lines b c = linesBetween lines a c := by
  have htake : lines.take b = (lines.take c).take b := by
    rw [List.take_take, Nat.min_eq_left hbc]
  rw [linesBetween, linesBetween, linesBetween, htake, List.drop_take,
    show (lines.take c).drop b = ((lines.take c).drop a).drop (b - a) by
      rw [List.drop_drop, Nat.add_sub_cancel' hab],
    List.take_append_drop]

theorem linesBetween_zero (lines : List Line) (stop : Nat) :
    linesBetween lines 0 stop = lines.take stop := rfl

theorem length_linesBetween {lines : List Line} {start stop : Nat} (h : stop ≤ lines.length) :
    (linesBetween lines start stop).length = stop - start := by
  rw [linesBetween, List.length_drop, List.length_take, Nat.min_eq_left h]

/-- Lines that are not empty and give no text are no lines at all. -/
theorem linesBetween_eq_nil {lines : List Line} {start stop : Nat}
    (hne : ∀ line ∈ lines, line ≠ []) (h : (linesBetween lines start stop).flatten = []) :
    linesBetween lines start stop = [] := by
  refine List.eq_nil_iff_forall_not_mem.mpr fun line hline => ?_
  have hmem := List.mem_of_mem_take (List.mem_of_mem_drop hline)
  exact hne line hmem (List.flatten_eq_nil_iff.mp h line hline)

theorem linesBetween_self (lines : List Line) (position : Nat) :
    linesBetween lines position position = [] := by
  rw [linesBetween, List.drop_take, Nat.sub_self, List.take_zero]

/-- The bodies of units with the lines between each two neighbours. -/
def withGaps (lines : List Line) : List SampleUnit → List Line
  | [] => []
  | [u] => u.body
  | u :: v :: units => u.body ++ linesBetween lines u.stop v.start ++ withGaps lines (v :: units)

/-- The bodies of units without the lines between them. -/
def withoutGaps (units : List SampleUnit) : List Line := units.flatMap SampleUnit.body

/-- Every unit begins where the one before it ends. -/
def Contiguous (units : List SampleUnit) : Prop := units.IsChain fun u v => u.stop = v.start

theorem length_withoutGaps_le (lines : List Line) (units : List SampleUnit) :
    (withoutGaps units).flatten.length ≤ (withGaps lines units).flatten.length := by
  induction units with
  | nil => exact Nat.le_refl _
  | cons u units ih =>
      cases units with
      | nil => simp [withoutGaps, withGaps]
      | cons v units =>
          rw [withGaps]
          simp only [withoutGaps, List.flatMap_cons, List.flatten_append, List.length_append]
            at ih ⊢
          omega

theorem withGaps_of_contiguous {units : List SampleUnit} (lines : List Line)
    (h : Contiguous units) : withGaps lines units = withoutGaps units := by
  induction units with
  | nil => rfl
  | cons u units ih =>
      cases units with
      | nil => simp [withoutGaps, withGaps]
      | cons v units =>
          obtain ⟨hnext, hrest⟩ := List.isChain_cons_cons.mp h
          rw [withGaps, hnext, linesBetween_self, List.append_nil, ih hrest]
          rfl

/-- What makes units parts of these lines: they are not empty, lie within the lines one after the
other, and have the lines of their range. -/
structure ArePartsOf (units : List SampleUnit) (lines : List Line) : Prop where
  range : ∀ u ∈ units, u.start < u.stop ∧ u.stop ≤ lines.length
  body : ∀ u ∈ units, u.body = linesBetween lines u.start u.stop
  /-- A unit ends before every later one begins. -/
  apart : units.Pairwise fun u v => u.stop ≤ v.start

namespace ArePartsOf

variable {lines : List Line} {u : SampleUnit} {units : List SampleUnit}

theorem tail (h : ArePartsOf (u :: units) lines) : ArePartsOf units lines where
  range v hv := h.range v (List.mem_cons_of_mem _ hv)
  body v hv := h.body v (List.mem_cons_of_mem _ hv)
  apart := h.apart.tail

theorem filter (h : ArePartsOf units lines) (p : SampleUnit → Bool) :
    ArePartsOf (units.filter p) lines where
  range v hv := h.range v (List.mem_of_mem_filter hv)
  body v hv := h.body v (List.mem_of_mem_filter hv)
  apart := h.apart.filter p

theorem next_start {v : SampleUnit} (h : ArePartsOf (u :: v :: units) lines) :
    u.stop ≤ v.start :=
  (List.pairwise_cons.mp h.apart).1 v List.mem_cons_self

/-- Units with the lines between them are all the lines from the first unit to the last one. -/
theorem withGaps_eq {last : SampleUnit} (h : ArePartsOf (u :: units) lines)
    (hlast : (u :: units).getLast? = some last) :
    u.start ≤ last.stop ∧ withGaps lines (u :: units) = linesBetween lines u.start last.stop := by
  induction units generalizing u with
  | nil =>
      obtain rfl := Option.some.inj hlast
      exact ⟨(h.range u List.mem_cons_self).1.le, h.body u List.mem_cons_self⟩
  | cons v units ih =>
      have hnext := h.next_start
      have hrange := (h.range u List.mem_cons_self).1
      obtain ⟨hle, hgaps⟩ := ih h.tail (by rwa [List.getLast?_cons_cons] at hlast)
      refine ⟨by omega, ?_⟩
      rw [withGaps, hgaps, h.body u List.mem_cons_self, linesBetween_append hrange.le hnext,
        linesBetween_append (by omega) hle]

/-- Leaving out the lines between units makes the text shorter, unless there are none. -/
theorem contiguous_of_length_le (h : ArePartsOf units lines) (hne : ∀ line ∈ lines, line ≠ [])
    (hle : (withGaps lines units).flatten.length ≤ (withoutGaps units).flatten.length) :
    Contiguous units := by
  induction units with
  | nil => exact List.IsChain.nil
  | cons u units ih =>
      cases units with
      | nil => exact List.IsChain.singleton u
      | cons v units =>
          have hnext := h.next_start
          have hv := h.range v (by simp)
          have hshort := length_withoutGaps_le lines (v :: units)
          rw [withGaps] at hle
          simp only [withoutGaps, List.flatMap_cons, List.flatten_append, List.length_append]
            at hle hshort ih
          have hgap : (linesBetween lines u.stop v.start).flatten = [] :=
            List.eq_nil_of_length_eq_zero (by omega)
          have hstart : u.stop = v.start := by
            have hlength : (linesBetween lines u.stop v.start).length = v.start - u.stop :=
              length_linesBetween (hv.1.le.trans hv.2)
            rw [linesBetween_eq_nil hne hgap, List.length_nil] at hlength
            omega
          exact List.isChain_cons_cons.mpr ⟨hstart, ih h.tail (by omega)⟩

end ArePartsOf

theorem DialectRules.scan_parts (rules : DialectRules) (lines : List Line) :
    ArePartsOf (rules.scan lines) lines := by
  obtain ⟨hmem, hpairs⟩ := (rules.scan_run lines).ordered
  exact ⟨fun u hu => ⟨(hmem u hu).2.1, (hmem u hu).2.2.1⟩, fun u hu => (hmem u hu).2.2.2, hpairs⟩

namespace Sample

variable (rules : DialectRules) (lines : List Line)

theorem units_ofLines :
    (ofLines rules lines).units = (rules.scan lines).filter SampleUnit.isValid := by
  rw [ofLines]
  split <;> rfl

theorem units_parts : ArePartsOf (ofLines rules lines).units lines := by
  rw [units_ofLines]
  exact (rules.scan_parts lines).filter SampleUnit.isValid

/-- A sample without a valid unit is all prologue. -/
theorem ofLines_of_units_eq_nil (h : (ofLines rules lines).units = []) :
    (ofLines rules lines).prologue = lines ∧ (ofLines rules lines).epilogue = [] := by
  rw [units_ofLines] at h
  rw [ofLines, h]
  exact ⟨rfl, rfl⟩

/-- A sample with valid units has the lines before the first one and those after the last one. -/
theorem ofLines_of_units_eq_cons {first last : SampleUnit} {units : List SampleUnit}
    (h : (ofLines rules lines).units = first :: units)
    (hlast : (first :: units).getLast? = some last) :
    (ofLines rules lines).prologue = lines.take first.start ∧
      (ofLines rules lines).epilogue = lines.drop last.stop := by
  rw [units_ofLines] at h
  rw [ofLines, h, List.head?_cons, hlast]
  exact ⟨rfl, rfl⟩

/-- The prologue, the units with the lines between them, and the epilogue are all the lines. -/
theorem prologue_withGaps_epilogue :
    (ofLines rules lines).prologue ++ withGaps lines (ofLines rules lines).units ++
      (ofLines rules lines).epilogue = lines := by
  cases hunits : (ofLines rules lines).units with
  | nil =>
      obtain ⟨hprologue, hepilogue⟩ := ofLines_of_units_eq_nil rules lines hunits
      rw [hprologue, hepilogue, withGaps, List.append_nil, List.append_nil]
  | cons first units =>
      have hlast := List.getLast?_eq_some_getLast (List.cons_ne_nil first units)
      obtain ⟨hprologue, hepilogue⟩ := ofLines_of_units_eq_cons rules lines hunits hlast
      have hparts := units_parts rules lines
      rw [hunits] at hparts
      obtain ⟨hle, hgaps⟩ := hparts.withGaps_eq hlast
      rw [hprologue, hepilogue, hgaps, ← linesBetween_zero,
        linesBetween_append (Nat.zero_le _) hle, linesBetween_zero, List.take_append_drop]

/-- What is left of the lines without those between the units is all of them exactly if the units
are contiguous. -/
theorem flatten_withoutGaps_eq_iff (hne : ∀ line ∈ lines, line ≠ []) :
    ((ofLines rules lines).prologue ++ withoutGaps (ofLines rules lines).units ++
      (ofLines rules lines).epilogue).flatten = lines.flatten ↔
    Contiguous (ofLines rules lines).units := by
  have hwhole := congrArg List.flatten (prologue_withGaps_epilogue rules lines)
  constructor
  · intro heq
    refine (units_parts rules lines).contiguous_of_length_le hne ?_
    have hlength := congrArg List.length (heq.trans hwhole.symm)
    simp only [List.flatten_append, List.length_append] at hlength
    omega
  · intro hcontiguous
    rw [← withGaps_of_contiguous lines hcontiguous]
    exact hwhole

/-- **Taking a text apart loses nothing.** Every scan step moves on and stays within the lines, the
scan is what goes on until no unit is left, and all units, so also the valid ones, are parts of the
lines. The prologue, the valid units with the lines between them and the epilogue are all the lines;
without the lines between the units they are the whole text exactly if the units are contiguous. -/
theorem ofLines_lossless (dialect : Dialect) (text : Text) :
    let rules := dialect.rules
    let lines := splitLines text
    let sample := ofLines rules lines
    (∀ cursor u, rules.nextUnit? lines cursor = some u →
      cursor ≤ u.start ∧ cursor < u.stop ∧ u.stop ≤ lines.length) ∧
    (∀ units, rules.ScanRun lines 0 units ↔ units = rules.scan lines) ∧
    ArePartsOf (rules.scan lines) lines ∧
    sample.units = (rules.scan lines).filter SampleUnit.isValid ∧
    ArePartsOf sample.units lines ∧
    sample.prologue ++ withGaps lines sample.units ++ sample.epilogue = lines ∧
    (sample.units = [] → sample.prologue = lines ∧ sample.epilogue = []) ∧
    ((sample.prologue ++ withoutGaps sample.units ++ sample.epilogue).flatten = text ↔
      Contiguous sample.units) := by
  intro rules lines sample
  refine ⟨fun cursor u hu => ?_, fun units => rules.scanRun_iff lines,
    rules.scan_parts lines, units_ofLines rules lines, units_parts rules lines,
    prologue_withGaps_epilogue rules lines, ofLines_of_units_eq_nil rules lines, ?_⟩
  · obtain ⟨hstart, hsome, hstop⟩ := DialectRules.nextUnit?_range hu
    exact ⟨hstart, by omega, hstop⟩
  · have hiff := flatten_withoutGaps_eq_iff rules lines fun _ => ne_nil_of_mem_splitLines
    rwa [flatten_splitLines] at hiff

end Sample

end SampleHarvest
