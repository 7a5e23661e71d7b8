import Mathlib.Tactic.SplitIfs
import SampleHarvest.Proofs.Sample.Scan
import SampleHarvest.Sample.Example

/-!
# Lines that look alike

All that is read from a line comes from the tests of its dialect and from the line without blanks
around it. If each line of a sample is written in another way that looks the same, the scan takes the
same steps, and the units, the parts of the sample and the standalone sources are the same lines
written in the other way.
-/

namespace SampleHarvest

/-- The second line is seen as the first one is. -/
structure DialectRules.LooksLike (rules : DialectRules) (line other : Line) : Prop where
  trim_eq : Text.trim other = Text.trim line
  isUnitStart_eq : rules.isUnitStart other = rules.isUnitStart line
  isUnitEnd_eq : rules.isUnitEnd other = rules.isUnitEnd line
  isComment_eq : rules.isComment other = rules.isComment line
  isHeaderEnd_eq : rules.isHeaderEnd other = rules.isHeaderEnd line

def DialectRules.KeepsLooks (rules : DialectRules) (write : Line → Line) (lines : List Line) : Prop :=
  ∀ line ∈ lines, rules.LooksLike line (write line)

def SampleUnit.mapLines (write : Line → Line) (u : SampleUnit) : SampleUnit :=
  { u with body := u.body.map write }

/-- The parts of a sample with the lines written in another way. -/
def Sample.mapLines (write : Line → Line) (sample : Sample) : Sample where
  prologue := sample.prologue.map write
  epilogue := sample.epilogue.map write
  units := sample.units.map (SampleUnit.mapLines write)

namespace DialectRules

variable {rules : DialectRules} {write : Line → Line} {line other : Line} {lines : List Line}

namespace LooksLike

theorem markerValue?_eq (h : rules.LooksLike line other) :
    rules.markerValue? other = rules.markerValue? line := by
  rw [markerValue?, markerValue?, h.trim_eq]

theorem isMarker_eq (h : rules.LooksLike line other) :
    rules.isMarker other = rules.isMarker line := by
  rw [isMarker, isMarker, h.markerValue?_eq]

theorem endsReference_eq (h : rules.LooksLike line other) :
    rules.endsReference other = rules.endsReference line := by
  rw [endsReference, endsReference, h.trim_eq, h.isComment_eq]

theorem commentText_eq (h : rules.LooksLike line other) :
    other.commentText = line.commentText := by
  rw [Line.commentText, Line.commentText, h.trim_eq]

end LooksLike

theorem KeepsLooks.subset {others : List Line} (h : rules.KeepsLooks write lines)
    (hothers : others ⊆ lines) : rules.KeepsLooks write others :=
  fun line hline => h line (hothers hline)

/-! ### Markers -/

theorem wrappedReference_map (h : rules.KeepsLooks write lines) :
    rules.wrappedReference (lines.map write) = rules.wrappedReference lines := by
  induction lines with
  | nil => rfl
  | cons line below ih =>
      obtain ⟨hline, hbelow⟩ := List.forall_mem_cons.mp h
      rw [List.map_cons, wrappedReference, wrappedReference, hline.endsReference_eq,
        hline.commentText_eq, ih hbelow]

theorem reference?_map (hline : rules.LooksLike line other)
    (h : rules.KeepsLooks write lines) :
    rules.reference? other (lines.map write) = rules.reference? line lines := by
  rw [reference?, reference?, hline.markerValue?_eq, wrappedReference_map h]

theorem isAggregated_map (h : rules.KeepsLooks write lines) :
    rules.isAggregated (lines.map write) = rules.isAggregated lines := by
  induction lines with
  | nil => rfl
  | cons line below ih =>
      obtain ⟨hline, hbelow⟩ := List.forall_mem_cons.mp h
      show (rules.isMarker (write line) || rules.isAggregated (below.map write)) =
        (rules.isMarker line || rules.isAggregated below)
      rw [hline.isMarker_eq, ih hbelow]

/-! ### The scan -/

theorem opening?_map (h : rules.KeepsLooks write lines)
    (pending? : Option Text) (index : Nat) :
    rules.opening? pending? index (lines.map write) =
      (rules.opening? pending? index lines).map fun opening =>
        { opening with below := opening.below.map write } := by
  induction lines generalizing pending? index with
  | nil => rfl
  | cons line below ih =>
      obtain ⟨hline, hbelow⟩ := List.forall_mem_cons.mp h
      simp only [List.map_cons, opening?, hline.isMarker_eq, hline.isUnitStart_eq,
        reference?_map hline hbelow, ih hbelow]
      split_ifs <;> rfl

theorem closing?_map (h : rules.KeepsLooks write lines) (index : Nat) :
    rules.closing? index (lines.map write) = rules.closing? index lines := by
  induction lines generalizing index with
  | nil => rfl
  | cons line below ih =>
      obtain ⟨hline, hbelow⟩ := List.forall_mem_cons.mp h
      rw [List.map_cons, closing?, closing?, hline.isUnitEnd_eq, ih hbelow]

theorem trailingComments_map (h : rules.KeepsLooks write lines) :
    rules.trailingComments (lines.map write) = rules.trailingComments lines := by
  have hreverse : rules.KeepsLooks write lines.reverse :=
    h.subset (List.reverse_subset.mpr (List.Subset.refl lines))
  rw [trailingComments, trailingComments, ← List.map_reverse]
  generalize lines.reverse = above at hreverse
  induction above with
  | nil => rfl
  | cons line above ih =>
      obtain ⟨hline, habove⟩ := List.forall_mem_cons.mp hreverse
      simp only [List.map_cons, List.takeWhile_cons, hline.isComment_eq]
      split
      · rw [List.length_cons, List.length_cons, ih habove]
      · rfl

/-- A scan step finds the same unit. -/
theorem nextUnit?_map (h : rules.KeepsLooks write lines) (start : Nat) :
    rules.nextUnit? (lines.map write) start =
      (rules.nextUnit? lines start).map (SampleUnit.mapLines write) := by
  have hdrop : rules.KeepsLooks write (lines.drop start) := h.subset (List.drop_subset start lines)
  simp only [nextUnit?, ← List.map_drop, ← List.map_take, opening?_map hdrop,
    Option.bind_eq_bind, Option.pure_def]
  cases hopening : rules.opening? none start (lines.drop start) with
  | none => rfl
  | some opening =>
      have hbelow : rules.KeepsLooks write opening.below :=
        hdrop.subset (opening?_below_suffix hopening).subset
      have habove : rules.KeepsLooks write ((lines.take opening.index).drop start) :=
        (h.subset (List.take_subset _ _)).subset (List.drop_subset _ _)
      simp only [Option.map_some, Option.bind_some, closing?_map hbelow,
        trailingComments_map habove]
      cases rules.closing? (opening.index + 1) opening.below <;> rfl

theorem scanFrom_map (h : rules.KeepsLooks write lines)
    (steps cursor : Nat) :
    rules.scanFrom (lines.map write) steps cursor =
      (rules.scanFrom lines steps cursor).map (SampleUnit.mapLines write) := by
  induction steps generalizing cursor with
  | zero => rfl
  | succ steps ih =>
      rw [scanFrom, scanFrom, nextUnit?_map h]
      cases rules.nextUnit? lines cursor with
      | none => rfl
      | some u =>
          show u.mapLines write :: rules.scanFrom (lines.map write) steps u.stop = _
          rw [ih, List.map_cons]

theorem scan_map (h : rules.KeepsLooks write lines) :
    rules.scan (lines.map write) = (rules.scan lines).map (SampleUnit.mapLines write) := by
  rw [scan, scan, List.length_map, scanFrom_map h]

/-! ### Standalone sources -/

theorem dropWhile_isHeaderEnd_map (h : rules.KeepsLooks write lines) :
    (lines.map write).dropWhile (fun line => !rules.isHeaderEnd line) =
      (lines.dropWhile fun line => !rules.isHeaderEnd line).map write := by
  induction lines with
  | nil => rfl
  | cons line below ih =>
      obtain ⟨hline, hbelow⟩ := List.forall_mem_cons.mp h
      simp only [List.map_cons, List.dropWhile_cons, hline.isHeaderEnd_eq]
      split
      · exact ih hbelow
      · rfl

theorem trimHeader_map (h : rules.KeepsLooks write lines) :
    rules.trimHeader (lines.map write) = (rules.trimHeader lines).map write := by
  rw [trimHeader, trimHeader, dropWhile_isHeaderEnd_map h]
  cases lines.dropWhile fun line => !rules.isHeaderEnd line with
  | nil => rfl
  | cons endLine rest => cases rules.headerCut <;> rfl

end DialectRules

namespace Sample

variable {rules : DialectRules} {write : Line → Line} {lines : List Line}

theorem ofLines_map (h : rules.KeepsLooks write lines) :
    ofLines rules (lines.map write) = (ofLines rules lines).mapLines write := by
  have hunits : (rules.scan (lines.map write)).filter SampleUnit.isValid =
      ((rules.scan lines).filter SampleUnit.isValid).map (SampleUnit.mapLines write) := by
    rw [DialectRules.scan_map h, List.filter_map]
    rfl
  simp only [ofLines, hunits, List.head?_map, List.getLast?_map]
  generalize (rules.scan lines).filter SampleUnit.isValid = units
  cases units.head? with
  | none => rfl
  | some first =>
      cases units.getLast? with
      | none => rfl
      | some last => simp [mapLines, SampleUnit.mapLines]

theorem assemble_mapLines (sample : Sample) (rules : DialectRules) (u : SampleUnit)
    (write : Line → Line) :
    (sample.mapLines write).assemble rules (u.mapLines write) =
      (sample.assemble rules u).map write := by
  simp only [assemble, mapLines, SampleUnit.mapLines, List.map_append]
  split <;> rfl

/-- A standalone source has its lines written in the other way if that does not disturb the rename. -/
theorem standalone_mapLines {sample : Sample} {u : SampleUnit} {rename? : Option Rename}
    (h : rules.KeepsLooks write (sample.assemble rules u))
    (hrename : ∀ rename ∈ rename?, ∀ line, rename.apply (write line) = write (rename.apply line)) :
    (sample.mapLines write).standalone rules (u.mapLines write) rename? =
      (sample.standalone rules u rename?).map write := by
  simp only [standalone, assemble_mapLines, DialectRules.trimHeader_map h]
  cases rename? with
  | none => rfl
  | some rename =>
      simp only [List.map_map]
      exact List.map_congr_left fun line _ => hrename rename rfl line

end Sample

end SampleHarvest
