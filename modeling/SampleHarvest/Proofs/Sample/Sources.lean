import Mathlib.Data.List.Pairwise
import SampleHarvest.Proofs.Sample.Header
import SampleHarvest.Proofs.Sample.Opening

/-!
# Where the lines of a standalone source come from

Each line of a standalone source stands at a position of the sample: above the first valid unit, in
the unit itself or, where the dialect needs the epilogue, below the last valid unit. No line of
another unit and none between two units comes in.
-/

namespace SampleHarvest

namespace ArePartsOf

variable {lines : List Line} {units : List SampleUnit} {u v : SampleUnit}

theorem head?_start_le (h : ArePartsOf units lines) {first : SampleUnit}
    (hfirst : units.head? = some first) (hu : u ∈ units) : first.start ≤ u.start := by
  obtain ⟨later, rfl⟩ := List.head?_eq_some_iff.mp hfirst
  rcases List.mem_cons.mp hu with rfl | hu
  · exact Nat.le_refl _
  · have hafter := (List.pairwise_cons.mp h.apart).1 u hu
    have hrange := (h.range first List.mem_cons_self).1
    omega

theorem stop_le_getLast? (h : ArePartsOf units lines) {last : SampleUnit}
    (hlast : units.getLast? = some last) (hu : u ∈ units) : u.stop ≤ last.stop := by
  obtain ⟨others, rfl⟩ := List.getLast?_eq_some_iff.mp hlast
  rcases List.mem_append.mp hu with hother | hu
  · have hbefore := (List.pairwise_append.mp h.apart).2.2 u hother last (List.mem_singleton_self _)
    have hrange := (h.range last (List.mem_append_right _ (List.mem_singleton_self _))).1
    omega
  · rw [List.mem_singleton.mp hu]

/-- Of two units one ends before the other begins. -/
theorem apart_of_ne (h : ArePartsOf units lines) (hu : u ∈ units) (hv : v ∈ units) (hne : u ≠ v) :
    u.stop ≤ v.start ∨ v.stop ≤ u.start := by
  have heither : units.Pairwise fun u v => u.stop ≤ v.start ∨ v.stop ≤ u.start :=
    h.apart.imp Or.inl
  have : Std.Symm fun u v : SampleUnit => u.stop ≤ v.start ∨ v.stop ≤ u.start :=
    ⟨fun _ _ => Or.symm⟩
  exact heither.forall hu hv hne

/-- No unit lies between two neighbours. -/
theorem stop_le_or_le_start {before after : List SampleUnit} {w : SampleUnit}
    (h : ArePartsOf (before ++ v :: w :: after) lines) (hu : u ∈ before ++ v :: w :: after) :
    u.stop ≤ v.stop ∨ w.start ≤ u.start := by
  obtain ⟨-, hrest, hbefore⟩ := List.pairwise_append.mp h.apart
  obtain ⟨-, hafter⟩ := List.pairwise_cons.mp hrest
  have hv := (h.range v (by simp)).1
  have hw := (h.range w (by simp)).1
  rcases List.mem_append.mp hu with hu | hu
  · have := hbefore u hu v List.mem_cons_self
    exact Or.inl (by omega)
  · rcases List.mem_cons.mp hu with rfl | hu
    · exact Or.inl (Nat.le_refl _)
    · rcases List.mem_cons.mp hu with rfl | hu
      · exact Or.inr (Nat.le_refl _)
      · have := (List.pairwise_cons.mp hafter).1 u hu
        exact Or.inr (by omega)

end ArePartsOf

theorem map_getElem?_range' {lines : List Line} {start count : Nat}
    (h : start + count ≤ lines.length) :
    (List.range' start count).map (fun position => lines[position]?) =
      ((lines.drop start).take count).map some := by
  apply List.ext_getElem
  · simp
    omega
  · intro index hleft hright
    have hindex : start + index < lines.length := by
      simp at hleft
      omega
    simp [hindex]

namespace Sample

variable {rules : DialectRules} {lines : List Line} {u : SampleUnit}

/-- The positions of the lines that are put together for a unit. -/
def assembledPositions (sample : Sample) (rules : DialectRules) (lines : List Line)
    (u : SampleUnit) : List Nat :=
  List.range' 0 sample.prologue.length ++ List.range' u.start u.body.length ++
    if rules.requiresEpilogue then
      List.range' (lines.length - sample.epilogue.length) sample.epilogue.length
    else []

/-- The positions of the lines that are left for a unit when the header is cut off. -/
def sourcePositions (sample : Sample) (rules : DialectRules) (lines : List Line)
    (u : SampleUnit) : List Nat :=
  (sample.assembledPositions rules lines u).drop (rules.headerLength (sample.assemble rules u))

/-- What a valid unit shares a sample with: the prologue ends where the first valid unit begins, and
the epilogue begins where the last one ends. -/
structure HasFrame (rules : DialectRules) (lines : List Line) (u first last : SampleUnit) :
    Prop where
  head?_eq : (ofLines rules lines).units.head? = some first
  getLast?_eq : (ofLines rules lines).units.getLast? = some last
  prologue_eq : (ofLines rules lines).prologue = lines.take first.start
  epilogue_eq : (ofLines rules lines).epilogue = lines.drop last.stop
  body_eq : u.body = (lines.drop u.start).take (u.stop - u.start)
  first_le : first.start ≤ u.start
  start_lt : u.start < u.stop
  le_last : u.stop ≤ last.stop
  last_le : last.stop ≤ lines.length

theorem exists_hasFrame (hu : u ∈ (ofLines rules lines).units) :
    ∃ first last, HasFrame rules lines u first last := by
  have hparts := units_parts rules lines
  obtain ⟨first, later, hunits⟩ := List.exists_cons_of_ne_nil (List.ne_nil_of_mem hu)
  obtain ⟨last, hlast⟩ : ∃ last, (first :: later).getLast? = some last :=
    ⟨_, List.getLast?_eq_some_getLast (List.cons_ne_nil first later)⟩
  obtain ⟨hprologue, hepilogue⟩ := ofLines_of_units_eq_cons rules lines hunits hlast
  have hhead : (ofLines rules lines).units.head? = some first := by rw [hunits, List.head?_cons]
  rw [← hunits] at hlast
  refine ⟨first, last, hhead, hlast, hprologue, hepilogue, ?_, hparts.head?_start_le hhead hu,
    (hparts.range u hu).1, hparts.stop_le_getLast? hlast hu,
    (hparts.range last (List.mem_of_getLast? hlast)).2⟩
  rw [hparts.body u hu, linesBetween, List.drop_take]

namespace HasFrame

variable {first last : SampleUnit}

theorem ordered (h : HasFrame rules lines u first last) :
    first.start ≤ u.start ∧ u.start < u.stop ∧ u.stop ≤ last.stop ∧ last.stop ≤ lines.length :=
  ⟨h.first_le, h.start_lt, h.le_last, h.last_le⟩

theorem length_prologue (h : HasFrame rules lines u first last) :
    (ofLines rules lines).prologue.length = first.start := by
  have hordered := h.ordered
  rw [h.prologue_eq, List.length_take]
  omega

theorem length_epilogue (h : HasFrame rules lines u first last) :
    (ofLines rules lines).epilogue.length = lines.length - last.stop := by
  rw [h.epilogue_eq, List.length_drop]

theorem length_body (h : HasFrame rules lines u first last) :
    u.body.length = u.stop - u.start := by
  have hordered := h.ordered
  rw [h.body_eq, List.length_take, List.length_drop]
  omega

/-- The ranges of positions that are put together for a unit. -/
theorem assembledPositions_eq (h : HasFrame rules lines u first last) :
    (ofLines rules lines).assembledPositions rules lines u =
      List.range' 0 first.start ++ List.range' u.start (u.stop - u.start) ++
        if rules.requiresEpilogue then
          List.range' last.stop (lines.length - last.stop)
        else [] := by
  have hlast : lines.length - (lines.length - last.stop) = last.stop := by
    have := h.last_le
    omega
  rw [assembledPositions, h.length_prologue, h.length_body, h.length_epilogue, hlast]

theorem mem_assembledPositions (h : HasFrame rules lines u first last) {position : Nat} :
    position ∈ (ofLines rules lines).assembledPositions rules lines u ↔
      position < first.start ∨ (u.start ≤ position ∧ position < u.stop) ∨
        (rules.requiresEpilogue ∧ last.stop ≤ position ∧ position < lines.length) := by
  have hordered := h.ordered
  rw [h.assembledPositions_eq]
  cases rules.requiresEpilogue <;> simp [List.mem_range'_1] <;> omega

theorem assembledPositions_ascending (h : HasFrame rules lines u first last) :
    ((ofLines rules lines).assembledPositions rules lines u).Pairwise (· < ·) := by
  have hordered := h.ordered
  have htail : (if rules.requiresEpilogue then
      List.range' last.stop (lines.length - last.stop) else []).Pairwise (· < ·) := by
    split
    · exact List.pairwise_lt_range'
    · exact List.Pairwise.nil
  rw [h.assembledPositions_eq]
  refine List.pairwise_append.mpr ⟨List.pairwise_append.mpr
    ⟨List.pairwise_lt_range', List.pairwise_lt_range', ?_⟩, htail, ?_⟩
  · intro p hp q hq
    rw [List.mem_range'_1] at hp hq
    omega
  · intro p hp q hq
    split at hq
    · rw [List.mem_append, List.mem_range'_1, List.mem_range'_1] at hp
      rw [List.mem_range'_1] at hq
      omega
    · cases hq

/-- The lines that are put together stand at these positions. -/
theorem map_assembledPositions (h : HasFrame rules lines u first last) :
    ((ofLines rules lines).assembledPositions rules lines u).map
        (fun position => lines[position]?) =
      ((ofLines rules lines).assemble rules u).map some := by
  have hordered := h.ordered
  have hprologue : (List.range' 0 first.start).map (fun position => lines[position]?) =
      (ofLines rules lines).prologue.map some := by
    rw [map_getElem?_range' (by omega), List.drop_zero, h.prologue_eq]
  have hbody : (List.range' u.start (u.stop - u.start)).map (fun position => lines[position]?) =
      u.body.map some := by
    rw [map_getElem?_range' (by omega), ← h.body_eq]
  have hepilogue : (List.range' last.stop (lines.length - last.stop)).map
      (fun position => lines[position]?) = (ofLines rules lines).epilogue.map some := by
    rw [map_getElem?_range' (by omega), h.epilogue_eq, List.take_of_length_le (by simp)]
  rw [h.assembledPositions_eq, assemble]
  cases rules.requiresEpilogue <;> simp [hprologue, hbody, hepilogue]

/-- A line of the prologue is left if it stands below the cut. -/
theorem mem_sourcePositions_of_lt (h : HasFrame rules lines u first last) {position : Nat}
    (hposition : position < first.start) :
    position ∈ (ofLines rules lines).sourcePositions rules lines u ↔
      rules.headerLength ((ofLines rules lines).assemble rules u) ≤ position := by
  have hordered := h.ordered
  have hrest : position ∉ List.range' u.start (u.stop - u.start) ++
      if rules.requiresEpilogue then List.range' last.stop (lines.length - last.stop) else [] := by
    cases rules.requiresEpilogue <;> simp [List.mem_range'_1] <;> omega
  rw [sourcePositions, h.assembledPositions_eq, List.append_assoc, List.drop_append,
    List.mem_append, List.drop_range', List.mem_range'_1]
  constructor
  · rintro (hprologue | hlater)
    · omega
    · exact absurd (List.mem_of_mem_drop hlater) hrest
  · intro hcut
    exact Or.inl (by omega)

end HasFrame

theorem map_sourcePositions (hu : u ∈ (ofLines rules lines).units) :
    ((ofLines rules lines).sourcePositions rules lines u).map (fun position => lines[position]?) =
      ((ofLines rules lines).standalone rules u none).map some := by
  obtain ⟨first, last, hframe⟩ := exists_hasFrame hu
  rw [sourcePositions, List.map_drop, hframe.map_assembledPositions, ← List.map_drop,
    ← rules.trimHeader_eq_drop]
  rfl

theorem body_sublist_withGaps (lines : List Line) {units : List SampleUnit} (hu : u ∈ units) :
    u.body.Sublist (withGaps lines units) := by
  induction units with
  | nil => cases hu
  | cons v units ih =>
      cases units with
      | nil =>
          rw [List.mem_singleton.mp hu]
          exact List.Sublist.refl _
      | cons w units =>
          rw [withGaps]
          rcases List.mem_cons.mp hu with rfl | hu
          · rw [List.append_assoc]
            exact List.sublist_append_left _ _
          · exact (ih hu).trans (List.sublist_append_right _ _)

/-- The lines that are put together for a unit are lines of the sample in their order. -/
theorem assemble_sublist (hu : u ∈ (ofLines rules lines).units) :
    ((ofLines rules lines).assemble rules u).Sublist lines := by
  have hepilogue : (if rules.requiresEpilogue then (ofLines rules lines).epilogue else []).Sublist
      (ofLines rules lines).epilogue := by
    split
    · exact List.Sublist.refl _
    · exact List.nil_sublist _
  have hwhole := ((List.Sublist.refl (ofLines rules lines).prologue).append
    (body_sublist_withGaps lines hu)).append hepilogue
  rwa [prologue_withGaps_epilogue] at hwhole

/-- **A standalone source has no line of another unit.** Its lines are those at ascending positions,
each of which is above the first valid unit, in the unit or, where the dialect needs the epilogue,
below the last valid unit. None is in another unit or between two units, and a rename changes each
line by itself. -/
theorem standalone_from_own_positions (dialect : Dialect) (lines : List Line) {u : SampleUnit}
    (hu : u ∈ (ofLines dialect.rules lines).units) :
    let rules := dialect.rules
    let sample := ofLines rules lines
    let positions := sample.sourcePositions rules lines u
    positions.Pairwise (· < ·) ∧
    (∀ position ∈ positions, ∀ first ∈ sample.units.head?, ∀ last ∈ sample.units.getLast?,
      position < first.start ∨ (u.start ≤ position ∧ position < u.stop) ∨
        (rules.requiresEpilogue ∧ last.stop ≤ position)) ∧
    (∀ position ∈ positions, ∀ v ∈ sample.units, v ≠ u →
      ¬(v.start ≤ position ∧ position < v.stop)) ∧
    (∀ position ∈ positions, ∀ before v w after, sample.units = before ++ v :: w :: after →
      ¬(v.stop ≤ position ∧ position < w.start)) ∧
    positions.map (fun position => lines[position]?) =
      (sample.standalone rules u none).map some ∧
    ∀ rename : Rename, positions.map (fun position => lines[position]?.map rename.apply) =
      (sample.standalone rules u (some rename)).map some := by
  intro rules sample positions
  obtain ⟨first, last, hframe⟩ := exists_hasFrame hu
  have hparts : ArePartsOf sample.units lines := units_parts rules lines
  have hfirst : sample.units.head? = some first := hframe.head?_eq
  have hlast : sample.units.getLast? = some last := hframe.getLast?_eq
  have hmap : positions.map (fun position => lines[position]?) =
      (sample.standalone rules u none).map some := map_sourcePositions hu
  have hwhere : ∀ position ∈ positions, position < first.start ∨
      (u.start ≤ position ∧ position < u.stop) ∨
        (rules.requiresEpilogue ∧ last.stop ≤ position ∧ position < lines.length) :=
    fun position hposition => hframe.mem_assembledPositions.mp (List.mem_of_mem_drop hposition)
  refine ⟨hframe.assembledPositions_ascending.sublist (List.drop_sublist _ _), ?_, ?_, ?_, hmap, ?_⟩
  · intro position hposition first' hfirst' last' hlast'
    obtain rfl := Option.some.inj (hfirst.symm.trans hfirst')
    obtain rfl := Option.some.inj (hlast.symm.trans hlast')
    exact (hwhere position hposition).imp_right (Or.imp_right fun h => ⟨h.1, h.2.1⟩)
  · intro position hposition v hv hne hin
    have hfirstle := hparts.head?_start_le hfirst hv
    have hlastle := hparts.stop_le_getLast? hlast hv
    have hapart := hparts.apart_of_ne hv hu hne
    rcases hwhere position hposition with h | h | h <;> omega
  · intro position hposition before v w after hunits hin
    have hv : v ∈ sample.units := by simp [hunits]
    have hw : w ∈ sample.units := by simp [hunits]
    have hfirstle := hparts.head?_start_le hfirst hv
    have hlastle := hparts.stop_le_getLast? hlast hw
    have hvrange := (hparts.range v hv).1
    have hwrange := (hparts.range w hw).1
    have hbetween : u.stop ≤ v.stop ∨ w.start ≤ u.start :=
      ArePartsOf.stop_le_or_le_start (hunits ▸ hparts) (hunits ▸ hu)
    rcases hwhere position hposition with h | h | h <;> omega
  · intro rename
    have hrename := congrArg (List.map (Option.map rename.apply)) hmap
    simpa [List.map_map, Function.comp_def, standalone] using hrename

/-- The second routine of a class comes with the line that opens the class and the one that closes
it. -/
theorem standalone_from_own_positions_secondRoutine :
    let rules := Dialect.java.rules
    let lines : List Line :=
      ["package a;\n", "class A \x7b\n", "     * x-ms-original-file: a/examples/A.json\n",
        "    public static void a() \x7b\n", "    \x7d\n", "\n",
        "     * x-ms-original-file: a/examples/B.json\n", "    public static void b() \x7b\n",
        "    \x7d\n", "\x7d\n"]
    let u : SampleUnit := ⟨some "a/examples/B.json", 6, 9, (lines.take 9).drop 6⟩
    let sample := ofLines rules lines
    let positions := sample.sourcePositions rules lines u
    u ∈ sample.units ∧ positions = [1, 6, 7, 8, 9] ∧
      positions.map (fun position => lines[position]?) =
        (sample.standalone rules u none).map some ∧
      positions.map (fun position => lines[position]?.map (Rename.apply ⟨"A", "Main"⟩)) =
        (sample.standalone rules u (some ⟨"A", "Main"⟩)).map some := by
  intro rules lines u sample positions
  have hu : u ∈ sample.units := by decide +kernel
  obtain ⟨-, -, -, -, hlines, hrenamed⟩ := standalone_from_own_positions .java lines hu
  exact ⟨hu, by decide +kernel, hlines, hrenamed _⟩

end Sample

end SampleHarvest
