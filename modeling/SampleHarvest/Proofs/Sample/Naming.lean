import SampleHarvest.Proofs.Sample.Sources

/-!
# The markers that name units

The reference of a valid unit comes from the last marker between the position where the scan step
began and the opening line of the unit. This marker need not be one of the lines of the unit, as
lines that are no comments may stand between the two. The marker of the first valid unit is then a
line of the prologue, which all standalone sources share; the marker of any other unit is a line
between two units, which none of them has.
-/

namespace SampleHarvest

namespace DialectRules

variable {rules : DialectRules} {lines : List Line} {u : SampleUnit}

/-- The position from which a scan goes on when it has found these units. -/
def cursorAfter : (cursor : Nat) → List SampleUnit → Nat
  | cursor, [] => cursor
  | _, u :: units => cursorAfter u.stop units

/-- The marker at a position names a unit: it is the last one from the position where the scan step
that finds the unit begins up to the opening line. -/
def IsNamedAt (rules : DialectRules) (lines : List Line) (u : SampleUnit) (position : Nat) : Prop :=
  ∃ before after opening, rules.scan lines = before ++ u :: after ∧
    rules.opening? none (cursorAfter 0 before) (lines.drop (cursorAfter 0 before)) = some opening ∧
    rules.IsLastMarker lines (cursorAfter 0 before) opening.index position

/-- Each unit of a scan is found from where the one before it ends, and so after all before it. -/
theorem ScanRun.split {cursor : Nat} {before after : List SampleUnit}
    (h : ScanRun rules lines cursor (before ++ u :: after)) :
    rules.nextUnit? lines (cursorAfter cursor before) = some u ∧
      cursor ≤ cursorAfter cursor before ∧ ∀ v ∈ before, v.stop ≤ cursorAfter cursor before := by
  induction before generalizing cursor with
  | nil =>
      cases h with
      | step hnext _ => exact ⟨hnext, Nat.le_refl _, List.forall_mem_nil _⟩
  | cons w before ih =>
      cases h with
      | step hnext hrest =>
          obtain ⟨hu, hstop, hbefore⟩ := ih hrest
          have hrange := nextUnit?_range hnext
          rw [cursorAfter]
          refine ⟨hu, by omega, ?_⟩
          intro v hv
          rcases List.mem_cons.mp hv with rfl | hv
          · exact hstop
          · exact hbefore v hv

/-- A unit that a scan step finds has the reference in force at its opening line and reaches beyond
that line. -/
theorem nextUnit?_opening {start : Nat} (h : rules.nextUnit? lines start = some u) :
    ∃ opening, rules.opening? none start (lines.drop start) = some opening ∧
      u.reference? = opening.reference? ∧ opening.index < u.stop := by
  obtain ⟨opening, stop, first, hopening, hstop, -, rfl⟩ := nextUnit?_eq_some.mp h
  have hrange := (closing?_range hstop).1
  exact ⟨opening, hopening, rfl, by dsimp only; omega⟩

/-- A valid unit is named by a marker. -/
theorem exists_isNamedAt (hrules : rules.TellsLinesApart) (hu : u ∈ rules.scan lines)
    (hvalid : u.isValid) : ∃ position, rules.IsNamedAt lines u position := by
  obtain ⟨before, after, hscan⟩ := List.append_of_mem hu
  obtain ⟨hnext, -, -⟩ := ScanRun.split (hscan ▸ scan_run rules lines)
  obtain ⟨opening, hopening, hreference, -⟩ := nextUnit?_opening hnext
  obtain ⟨position, hlast⟩ := exists_isLastMarker hrules hopening (hreference ▸ hvalid)
  exact ⟨position, before, after, opening, hscan, hopening, hlast⟩

namespace IsNamedAt

variable {position : Nat}

theorem referenceAt?_eq (hrules : rules.TellsLinesApart) (h : rules.IsNamedAt lines u position) :
    rules.referenceAt? lines position = u.reference? := by
  obtain ⟨before, after, opening, hscan, hopening, hlast⟩ := h
  obtain ⟨hnext, -, -⟩ := ScanRun.split (hscan ▸ scan_run rules lines)
  obtain ⟨found, hfound, hreference, -⟩ := nextUnit?_opening hnext
  obtain rfl := Option.some.inj (hopening.symm.trans hfound)
  rw [hreference, hlast.referenceAt?_eq hrules hopening]

theorem isMarker (h : rules.IsNamedAt lines u position) :
    ∃ line ∈ lines[position]?, rules.isMarker line := by
  obtain ⟨before, after, opening, hscan, hopening, hlast⟩ := h
  exact hlast.isMarker

/-- The marker that names a unit stands above the end of the unit. -/
theorem lt_stop (h : rules.IsNamedAt lines u position) : position < u.stop := by
  obtain ⟨before, after, opening, hscan, hopening, hlast⟩ := h
  obtain ⟨hnext, -, -⟩ := ScanRun.split (hscan ▸ scan_run rules lines)
  obtain ⟨found, hfound, -, hindex⟩ := nextUnit?_opening hnext
  obtain rfl := Option.some.inj (hopening.symm.trans hfound)
  exact Nat.lt_trans hlast.lt_stop hindex

/-- Every other unit ends above the marker that names a unit or begins below this unit. -/
theorem apart (h : rules.IsNamedAt lines u position) {v : SampleUnit} (hv : v ∈ rules.scan lines)
    (hne : v ≠ u) : v.stop ≤ position ∨ u.stop ≤ v.start := by
  obtain ⟨before, after, opening, hscan, -, hlast⟩ := h
  obtain ⟨-, -, hbefore⟩ := ScanRun.split (hscan ▸ scan_run rules lines)
  have hapart := (rules.scan_parts lines).apart
  rw [hscan] at hv hapart
  rcases List.mem_append.mp hv with hv | hv
  · exact Or.inl (Nat.le_trans (hbefore v hv) hlast.start_le)
  · have hafter : v ∈ after := (List.mem_cons.mp hv).resolve_left hne
    have hrest := (List.pairwise_append.mp hapart).2.1
    exact Or.inr ((List.pairwise_cons.mp hrest).1 v hafter)

end IsNamedAt

end DialectRules

namespace Sample

open DialectRules

variable {rules : DialectRules} {lines : List Line} {u v first last : SampleUnit} {position : Nat}

theorem mem_scan_of_mem_units (hu : u ∈ (ofLines rules lines).units) :
    u ∈ rules.scan lines ∧ u.isValid := by
  rw [units_ofLines] at hu
  exact List.mem_filter.mp hu

/-- A marker that names a unit stands in the prologue only if the unit is the first valid one and
the marker stands above it. -/
theorem HasFrame.marker_lt_first_iff (h : HasFrame rules lines u first last)
    (hmarker : rules.IsNamedAt lines u position) : position < first.start ↔
      (ofLines rules lines).units.head? = some u ∧ position < u.start := by
  rw [h.head?_eq]
  constructor
  · intro hposition
    by_cases hne : first = u
    · exact ⟨by rw [hne], hne ▸ hposition⟩
    · have hfirst := List.mem_of_head? h.head?_eq
      have hrange := ((units_parts rules lines).range first hfirst).1
      have hordered := h.ordered
      rcases hmarker.apart (mem_scan_of_mem_units hfirst).1 hne with habove | hbelow <;> omega
  · rintro ⟨hfirst, hposition⟩
    rwa [Option.some.inj hfirst]

/-- The cut of the header leaves a marker of the prologue if the header ends above the marker or
nowhere. -/
theorem HasFrame.headerLength_le_iff (hrules : rules.TellsLinesApart)
    (h : HasFrame rules lines v first last) (hposition : position < first.start)
    (hmarker : ∃ line ∈ lines[position]?, rules.isMarker line) :
    rules.headerLength ((ofLines rules lines).assemble rules v) ≤ position ↔
      (∃ line ∈ lines.take position, rules.isHeaderEnd line) ∨
        ∀ line ∈ (ofLines rules lines).assemble rules v, ¬rules.isHeaderEnd line := by
  obtain ⟨marker, hget, hismarker⟩ := hmarker
  obtain ⟨hbound, hmarker⟩ := List.getElem?_eq_some_iff.mp hget
  have hplain : ¬rules.isHeaderEnd marker :=
    hrules.not_isHeaderEnd (hrules.isComment_of_isMarker hismarker)
  have hlength : (lines.take position).length = position :=
    List.length_take_of_le hbound.le
  obtain ⟨between, hprologue⟩ : ∃ between,
      lines.take first.start = lines.take position ++ marker :: between := by
    have hindex : position < (lines.take first.start).length := by
      rw [List.length_take]
      omega
    have hhead : (lines.take first.start)[position] = marker := by rw [List.getElem_take, hmarker]
    have hfront : (lines.take first.start).take position = lines.take position := by
      rw [List.take_take, Nat.min_eq_left hposition.le]
    refine ⟨(lines.take first.start).drop (position + 1), ?_⟩
    rw [← hhead, ← List.drop_eq_getElem_cons hindex, ← hfront, List.take_append_drop]
  obtain ⟨back, hassemble⟩ : ∃ back,
      (ofLines rules lines).assemble rules v = lines.take position ++ marker :: back := by
    rw [assemble, h.prologue_eq, hprologue]
    exact ⟨between ++ (v.body ++
      if rules.requiresEpilogue then (ofLines rules lines).epilogue else []),
      by simp only [List.append_assoc, List.cons_append]⟩
  have hcut := rules.headerLength_append_cons_le_iff (lines.take position) back hplain
  rw [hlength] at hcut
  rw [hassemble, hcut]

/-- **Which marker of one unit comes into the standalone source of another.** Every valid unit is
named by a marker, and has the reference of this marker. The marker is among the lines of the
standalone source of another valid unit exactly if it names the first valid unit, stands above all
lines of its unit, and is left by the cut of the header: a line above it ends the header, or no line
that is put together for the other unit does. -/
theorem marker_mem_sourcePositions_iff (dialect : Dialect) (lines : List Line) {u : SampleUnit}
    (hu : u ∈ (ofLines dialect.rules lines).units) :
    let rules := dialect.rules
    let sample := ofLines rules lines
    (∃ position, rules.IsNamedAt lines u position) ∧
    ∀ position, rules.IsNamedAt lines u position →
      rules.referenceAt? lines position = u.reference? ∧
      ∀ v ∈ sample.units, v ≠ u →
        (sample.sourcePositions rules lines v).map (fun position => lines[position]?) =
          (sample.standalone rules v none).map some ∧
        (position ∈ sample.sourcePositions rules lines v ↔
          sample.units.head? = some u ∧ position < u.start ∧
            ((∃ line ∈ lines.take position, rules.isHeaderEnd line) ∨
              ∀ line ∈ sample.assemble rules v, ¬rules.isHeaderEnd line)) := by
  intro rules sample
  have hrules : rules.TellsLinesApart := dialect.tellsLinesApart
  obtain ⟨hscan, hvalid⟩ := mem_scan_of_mem_units hu
  refine ⟨exists_isNamedAt hrules hscan hvalid, ?_⟩
  intro position hmarker
  refine ⟨hmarker.referenceAt?_eq hrules, ?_⟩
  intro v hv hne
  refine ⟨map_sourcePositions hv, ?_⟩
  obtain ⟨first, last, hframe⟩ := exists_hasFrame hv
  have hfirst : position < first.start ↔ sample.units.head? = some u ∧ position < u.start := by
    obtain ⟨first', last', hframe'⟩ := exists_hasFrame hu
    obtain rfl := Option.some.inj (hframe'.head?_eq.symm.trans hframe.head?_eq)
    exact hframe'.marker_lt_first_iff hmarker
  by_cases hprologue : position < first.start
  · obtain ⟨hhead, habove⟩ := hfirst.mp hprologue
    rw [hframe.mem_sourcePositions_of_lt hprologue,
      hframe.headerLength_le_iff hrules hprologue hmarker.isMarker]
    exact ⟨fun hkept => ⟨hhead, habove, hkept⟩, fun h => h.2.2⟩
  · -- Below the prologue the marker would be a line of the other unit or of the epilogue.
    have hstop := (units_parts rules lines).stop_le_getLast? hframe.getLast?_eq hu
    have hlt := hmarker.lt_stop
    have hapart := hmarker.apart (mem_scan_of_mem_units hv).1 hne
    have hnot : position ∉ sample.sourcePositions rules lines v := by
      intro hmem
      have hwhere := hframe.mem_assembledPositions.mp (List.mem_of_mem_drop hmem)
      omega
    exact iff_of_false hnot fun h => hprologue (hfirst.mpr ⟨h.1, h.2.1⟩)

/-- Two routines, the first below an empty line that parts it from its marker. -/
def partedMarker : List Line :=
  ["package p\n", "\n", "// x-ms-original-file: specs/A.json\n", "\n", "func ExampleA() \x7b\n",
    "\x7d\n", "\n", "// x-ms-original-file: specs/B.json\n", "func ExampleB() \x7b\n", "\x7d\n"]

theorem isNamedAt_partedMarker :
    Dialect.go.rules.IsNamedAt partedMarker
      ⟨some "specs/A.json", 4, 6, (partedMarker.take 6).drop 4⟩ 2 := by
  refine ⟨[], [⟨some "specs/B.json", 7, 10, partedMarker.drop 7⟩],
    ⟨some "specs/A.json", 4, partedMarker.drop 5⟩, by decide +kernel, by rfl,
    by decide, by decide, ⟨_, rfl, by decide +kernel⟩, ?_⟩
  intro later hafter hbefore
  obtain rfl : later = 3 := by
    dsimp only at hbefore
    omega
  decide +kernel

/-- The marker of the first routine is a line of the standalone source of the second one. -/
theorem marker_mem_sourcePositions_other :
    ¬∀ (dialect : Dialect) (lines : List Line) (u v : SampleUnit) (position : Nat),
      u ∈ (ofLines dialect.rules lines).units → v ∈ (ofLines dialect.rules lines).units → v ≠ u →
      dialect.rules.IsNamedAt lines u position →
      position ∉ (ofLines dialect.rules lines).sourcePositions dialect.rules lines v := by
  intro h
  have hfirst : ⟨some "specs/A.json", 4, 6, (partedMarker.take 6).drop 4⟩ ∈
      (ofLines Dialect.go.rules partedMarker).units := by decide +kernel
  have hsecond : ⟨some "specs/B.json", 7, 10, partedMarker.drop 7⟩ ∈
      (ofLines Dialect.go.rules partedMarker).units := by decide +kernel
  have hnot := h .go partedMarker _ _ 2 hfirst hsecond (by decide +kernel) isNamedAt_partedMarker
  revert hnot
  decide +kernel

/-- The marker of the second routine is no line of the standalone source of the first one. -/
theorem marker_mem_sourcePositions_iff_partedMarker :
    let rules := Dialect.go.rules
    let u : SampleUnit := ⟨some "specs/B.json", 7, 10, partedMarker.drop 7⟩
    let v : SampleUnit := ⟨some "specs/A.json", 4, 6, (partedMarker.take 6).drop 4⟩
    u ∈ (ofLines rules partedMarker).units ∧ v ∈ (ofLines rules partedMarker).units ∧
      ∃ position, rules.referenceAt? partedMarker position = some "specs/B.json" ∧
        position ∉ (ofLines rules partedMarker).sourcePositions rules partedMarker v := by
  intro rules u v
  have hu : u ∈ (ofLines rules partedMarker).units := by decide +kernel
  have hv : v ∈ (ofLines rules partedMarker).units := by decide +kernel
  obtain ⟨⟨position, hmarker⟩, hall⟩ := marker_mem_sourcePositions_iff .go partedMarker hu
  obtain ⟨hreference, hothers⟩ := hall position hmarker
  obtain ⟨-, hiff⟩ := hothers v hv (by decide +kernel)
  have hnotFirst : (ofLines rules partedMarker).units.head? ≠ some u := by decide +kernel
  exact ⟨hu, hv, position, hreference, fun hmem => hnotFirst (hiff.mp hmem).1⟩

end Sample

end SampleHarvest
