import SampleHarvest.Proofs.Harvest.Accounting

/-!
# To look for markers first hides nothing

A file without a marker is not taken apart. This saves the scan and changes nothing else, because a
unit is valid only if a marker stands above its opening line. So without a marker each routine is
stepped over, wherever it begins and ends.

A file counts as aggregated if it has an example or a marker. An example needs a marker, so it is the
marker that decides, and a file in which no routine follows the marker counts as well.
-/

namespace SampleHarvest

open DialectRules

namespace Harvester

variable {harvester : Harvester} {disk : Disk}

theorem isAggregated_iff {source : Path} {outcome : FileHarvest}
    (h : harvester.harvestFile disk source = .ok outcome) :
    outcome.isAggregated ↔
      ∃ line ∈ disk.linesOf source, harvester.dialect.rules.isMarker line := by
  rw [(harvestFile_accounts h).aggregated, DialectRules.isAggregated, List.any_eq_true]

theorem aggregatedFiles_eq {sources : Path} {files : List Path} {harvest : Harvest}
    (hfiles : disk.discover harvester.dialect.rules sources = .ok files)
    (h : harvester.harvest disk sources = .ok harvest) :
    harvest.report.aggregatedFiles =
      files.countP fun source => (disk.linesOf source).any harvester.dialect.rules.isMarker := by
  obtain ⟨files', hfiles', -, hgiven⟩ := harvest_ok_iff.mp h
  obtain rfl := Except.ok.inj (hfiles'.symm.trans hfiles)
  obtain ⟨rfl, haccounts⟩ := exists_harvestFiles_eq hgiven
  rw [Harvest.ofFiles, List.countP_map]
  refine List.countP_congr fun source hsource => ?_
  rw [Function.comp_apply, (haccounts source hsource).aggregated, DialectRules.isAggregated]

/-- **Markers.** With the look for a marker and without it the examples of a text are the same.
Whatever opens and closes a unit, each valid one has a marker of its own, which stands below the end
of the unit before it; without a marker no unit has a reference, wherever a step begins.

A file counts as aggregated in a harvest exactly if one of its lines is a marker, and a harvest tells
how many such files were discovered. -/
theorem marker_filter_exact (harvester : Harvester) (disk : Disk) :
    (∀ text symbol, extractExamples harvester.dialect.rules text symbol =
      (Sample.ofLines harvester.dialect.rules (splitLines text)).examples
        harvester.dialect.rules symbol) ∧
    (∀ (rules : DialectRules) (lines : List Line) (start : Nat) (u : SampleUnit),
      rules.nextUnit? lines start = some u → u.isValid → ∃ i, start ≤ i ∧ i < u.stop ∧
        ∃ line, lines[i]? = some line ∧ rules.isMarker line) ∧
    (∀ (rules : DialectRules) (lines : List Line), (∀ line ∈ lines, ¬rules.isMarker line) →
      (∀ start u, rules.nextUnit? lines start = some u → u.reference? = none) ∧
      (∀ u ∈ rules.scan lines, u.reference? = none) ∧
      (Sample.ofLines rules lines).units = []) ∧
    (∀ source outcome, harvester.harvestFile disk source = .ok outcome →
      (outcome.isAggregated ↔
        ∃ line ∈ disk.linesOf source, harvester.dialect.rules.isMarker line)) ∧
    ∀ sources files harvest, disk.discover harvester.dialect.rules sources = .ok files →
      harvester.harvest disk sources = .ok harvest → harvest.report.aggregatedFiles =
        files.countP fun source =>
          (disk.linesOf source).any harvester.dialect.rules.isMarker := by
  refine ⟨extractExamples_eq _, fun _ _ _ _ => nextUnit?_marker, fun rules lines hnone => ?_,
    fun _ _ => isAggregated_iff, fun _ _ _ => aggregatedFiles_eq⟩
  have hlines := isAggregated_eq_false_iff.mpr hnone
  exact ⟨fun _ _ => nextUnit?_reference?_eq_none hlines,
    (scan_run rules lines).reference?_eq_none hlines, Sample.units_ofLines_eq_nil hlines⟩

/-- A marker without a routine, and a routine without a marker. -/
example :
    let marked : Text := "// x-ms-original-file: a/b.json\n"
    let unmarked : Text := "func ExampleA() \x7b\n\x7d\n"
    let rules := Dialect.go.rules
    (rules.isAggregated (splitLines marked), (rules.scan (splitLines marked)).length) = (true, 0) ∧
      (rules.isAggregated (splitLines unmarked), (rules.scan (splitLines unmarked)).length) =
        (false, 1) := by
  decide

end Harvester

end SampleHarvest
