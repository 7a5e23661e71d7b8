import Mathlib.Tactic.Set
import SampleHarvest.Proofs.Sample.Opening
import SampleHarvest.Proofs.Sample.Partition

/-!
# Scans are local and stable

A scan step sees only the lines from its position on: it is the first step of these lines, with its
positions moved. And it never looks beyond the closing line of the unit it finds. A wrapped reference
could lead further, but it ends above the opening line, which is no comment. So lines that are put
behind a sample leave the units that were found in it as they are.
-/

namespace SampleHarvest

/-- The unit at another place, so many lines further down. -/
def SampleUnit.shift (distance : Nat) (u : SampleUnit) : SampleUnit :=
  { u with start := distance + u.start, stop := distance + u.stop }

namespace DialectRules

variable {rules : DialectRules} {lines above below : List Line}

/-! ### Lines above -/

theorem opening?_shift (rules : DialectRules) (pending? : Option Text) (distance index : Nat)
    (lines : List Line) :
    rules.opening? pending? (distance + index) lines =
      (rules.opening? pending? index lines).map fun opening =>
        { opening with index := distance + opening.index } := by
  induction lines generalizing pending? index with
  | nil => rfl
  | cons line below ih =>
      simp only [opening?, Nat.add_assoc, ih]
      split_ifs <;> rfl

theorem closing?_shift (rules : DialectRules) (distance index : Nat) (lines : List Line) :
    rules.closing? (distance + index) lines =
      (rules.closing? index lines).map (distance + ·) := by
  induction lines generalizing index with
  | nil => rfl
  | cons line below ih =>
      simp only [closing?, Nat.add_assoc, ih]
      split_ifs <;> rfl

theorem drop_take_add (lines : List Line) (start first stop : Nat) :
    (lines.take (start + stop)).drop (start + first) = ((lines.drop start).take stop).drop first := by
  rw [← List.drop_drop, List.drop_take, Nat.add_sub_cancel_left]

/-- A scan step from a position is the first scan step of the lines from there on. -/
theorem nextUnit?_drop (rules : DialectRules) (lines : List Line) (start : Nat) :
    rules.nextUnit? lines start =
      (rules.nextUnit? (lines.drop start) 0).map (SampleUnit.shift start) := by
  have hopening := opening?_shift rules none start 0 (lines.drop start)
  simp only [nextUnit?, List.drop_zero, Option.bind_eq_bind, Option.pure_def]
  rw [Nat.add_zero] at hopening
  rw [hopening]
  cases rules.opening? none 0 (lines.drop start) with
  | none => rfl
  | some opening =>
      have hclosing := closing?_shift rules start (opening.index + 1) opening.below
      simp only [Option.map_some, Option.bind_some]
      rw [Nat.add_assoc, hclosing]
      cases rules.closing? (opening.index + 1) opening.below with
      | none => rfl
      | some stop =>
          set comments := rules.trailingComments ((lines.drop start).take opening.index)
          have hcomments : comments ≤ opening.index :=
            (trailingComments_le rules _).trans (List.length_take_le _ _)
          have htake : (lines.take (start + opening.index)).drop start =
              (lines.drop start).take opening.index := by
            simpa using drop_take_add lines start 0 opening.index
          have hfirst : (if opening.reference?.isSome then start + opening.index - comments
                else start + opening.index) =
              start + if opening.reference?.isSome then opening.index - comments
                else opening.index := by
            split_ifs
            · omega
            · rfl
          simp only [Option.map_some, Option.bind_some, SampleUnit.shift, htake, comments, hfirst,
            drop_take_add]

/-! ### Lines below -/

theorem opening?_append_below (hrules : rules.TellsLinesApart) {pending? : Option Text} {index : Nat}
    {opening : Opening} (h : rules.opening? pending? index lines = some opening)
    (more : List Line) :
    rules.opening? pending? index (lines ++ more) =
      some { opening with below := opening.below ++ more } := by
  obtain ⟨above, line, rfl, habove, hline, hindex, hreference⟩ := (opening?_eq_some_iff hrules).mp h
  have hcomment : ¬rules.isComment line := fun hcomment => hrules.not_isUnitStart hcomment hline
  refine (opening?_eq_some_iff hrules).mpr ⟨above, line, by simp, habove, hline, hindex, ?_⟩
  rw [hreference, pendingAfter_cons hcomment, pendingAfter_cons hcomment]

theorem closing?_append_below {index stop : Nat} (h : rules.closing? index lines = some stop)
    (more : List Line) : rules.closing? index (lines ++ more) = some stop := by
  induction lines generalizing index with
  | nil => cases h
  | cons line below ih =>
      rw [closing?] at h
      rw [List.cons_append, closing?]
      split_ifs at h ⊢
      · exact h
      · exact ih h

/-- A unit that is found in some lines is found when others follow them. -/
theorem nextUnit?_append (hrules : rules.TellsLinesApart) {start : Nat} {u : SampleUnit}
    (h : rules.nextUnit? lines start = some u) (more : List Line) :
    rules.nextUnit? (lines ++ more) start = some u := by
  obtain ⟨hafter, hsome, hwithin⟩ := nextUnit?_range h
  obtain ⟨opening, stop, first, hopening, hstop, hfirst, rfl⟩ := nextUnit?_eq_some.mp h
  obtain ⟨hindex, hbelow⟩ := opening?_range hopening
  have hstart : start ≤ lines.length := by omega
  have hopening' := opening?_append_below hrules hopening more
  rw [← List.drop_append_of_le_length hstart] at hopening'
  have hlength : opening.index ≤ lines.length := by
    rw [List.length_drop] at hbelow
    omega
  refine nextUnit?_eq_some.mpr ⟨_, stop, first, hopening', closing?_append_below hstop more, ?_, ?_⟩
  · rw [List.take_append_of_le_length hlength]
    exact hfirst
  · rw [List.take_append_of_le_length hwithin]

theorem ScanRun.append_prefix (hrules : rules.TellsLinesApart) {more : List Line} {cursor : Nat}
    {units others : List SampleUnit} (h : ScanRun rules lines cursor units)
    (h' : ScanRun rules (lines ++ more) cursor others) : units <+: others := by
  induction h generalizing others with
  | done => exact List.nil_prefix
  | step hu rest ih =>
      have hfound := nextUnit?_append hrules hu more
      cases h' with
      | done hnone => rw [hnone] at hfound; cases hfound
      | step hu' rest' =>
          obtain rfl := Option.some.inj (hfound.symm.trans hu')
          exact List.cons_prefix_cons.mpr ⟨rfl, ih rest'⟩

end DialectRules

namespace Sample

/-- **Locality and stability.** A scan step from any position is the first step of the lines from
there on, with all positions moved by it, so what stands above does not matter. And the valid units
of a sample come first, unchanged, among the valid units of every sample that begins with it. -/
theorem scan_local_stable (dialect : Dialect) :
    let rules := dialect.rules
    (∀ lines start, rules.nextUnit? lines start =
      (rules.nextUnit? (lines.drop start) 0).map (SampleUnit.shift start)) ∧
    (∀ lines others start, lines.drop start = others.drop start →
      rules.nextUnit? lines start = rules.nextUnit? others start) ∧
    ∀ lines more, (ofLines rules lines).units <+: (ofLines rules (lines ++ more)).units := by
  intro rules
  refine ⟨rules.nextUnit?_drop, fun lines others start hsame => ?_, fun lines more => ?_⟩
  · rw [rules.nextUnit?_drop lines, rules.nextUnit?_drop others, hsame]
  · rw [units_ofLines, units_ofLines]
    exact (DialectRules.ScanRun.append_prefix dialect.tellsLinesApart (rules.scan_run lines)
      (rules.scan_run (lines ++ more))).filter SampleUnit.isValid

/-- An unfinished unit is no unit. With its closing line it becomes one, behind the unit before it. -/
example :
    let a : List Line := ["// x-ms-original-file: A\n", "func A()\n", "\x7d\n",
      "// x-ms-original-file: B\n", "func B()\n"]
    ((ofLines Dialect.go.rules a).units.map SampleUnit.start,
      (ofLines Dialect.go.rules (a ++ [("\x7d\n" : Line)])).units.map SampleUnit.start) = ([0], [0, 3]) := by
  decide +kernel

end Sample

end SampleHarvest
