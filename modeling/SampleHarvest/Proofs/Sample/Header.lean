import Mathlib.Data.List.TakeWhile
import SampleHarvest.Proofs.Sample.Partition
import SampleHarvest.Sample.Standalone

/-!
# The cut of the file header

The header is looked for in the lines put together, so it need not end within the prologue. If a
line of the prologue ends it, or no line at all does, only lines of the prologue are cut off. If
only a later line ends it, the whole prologue is cut off with the lines of the unit or the epilogue
above that line.
-/

namespace SampleHarvest

namespace DialectRules

variable {rules : DialectRules} {lines front back : List Line}

theorem trimHeader_of_forall (h : ∀ line ∈ lines, ¬rules.isHeaderEnd line) :
    rules.trimHeader lines = lines := by
  have hnone : lines.dropWhile (fun line => !rules.isHeaderEnd line) = [] :=
    List.dropWhile_eq_nil_iff.mpr fun line hline => by simpa using h line hline
  rw [trimHeader, hnone]

theorem trimHeader_cons_of_isHeaderEnd {line : Line} (hline : rules.isHeaderEnd line) :
    rules.trimHeader (line :: lines) =
      match rules.headerCut with
      | .keepEndLine => line :: lines
      | .dropEndLine => lines := by
  have hdrop : (line :: lines).dropWhile (fun line => !rules.isHeaderEnd line) = line :: lines :=
    List.dropWhile_cons_of_neg (by simp [hline])
  cases hcut : rules.headerCut <;> simp only [trimHeader, hdrop, hcut]

theorem trimHeader_cons_of_exists {line : Line} (hline : ¬rules.isHeaderEnd line)
    (hlines : ∃ other ∈ lines, rules.isHeaderEnd other) :
    rules.trimHeader (line :: lines) = rules.trimHeader lines := by
  have hsome : lines.dropWhile (fun line => !rules.isHeaderEnd line) ≠ [] := by
    intro hnil
    obtain ⟨other, hother, hend⟩ := hlines
    simpa [hend] using List.dropWhile_eq_nil_iff.mp hnil other hother
  obtain ⟨endLine, rest, hrest⟩ := List.exists_cons_of_ne_nil hsome
  rw [trimHeader, trimHeader, List.dropWhile_cons_of_pos (by simp [hline]), hrest]

theorem trimHeader_suffix (rules : DialectRules) (lines : List Line) :
    rules.trimHeader lines <:+ lines := by
  rw [trimHeader]
  split
  · exact List.suffix_rfl
  · next endLine rest hdrop =>
      have hsuffix : endLine :: rest <:+ lines := hdrop ▸ List.dropWhile_suffix _
      split
      · exact hsuffix
      · exact (List.suffix_cons endLine rest).trans hsuffix

theorem trimHeader_append_of_exists (h : ∃ line ∈ front, rules.isHeaderEnd line)
    (back : List Line) : rules.trimHeader (front ++ back) = rules.trimHeader front ++ back := by
  induction front with
  | nil =>
      obtain ⟨line, hline, -⟩ := h
      cases hline
  | cons line front ih =>
      by_cases hline : rules.isHeaderEnd line
      · rw [List.cons_append, trimHeader_cons_of_isHeaderEnd hline,
          trimHeader_cons_of_isHeaderEnd hline]
        cases rules.headerCut <;> rfl
      · have hfront : ∃ other ∈ front, rules.isHeaderEnd other := by simpa [hline] using h
        have happend : ∃ other ∈ front ++ back, rules.isHeaderEnd other := by
          obtain ⟨other, hother, hend⟩ := hfront
          exact ⟨other, List.mem_append_left back hother, hend⟩
        rw [List.cons_append, trimHeader_cons_of_exists hline happend,
          trimHeader_cons_of_exists hline hfront, ih hfront]

/-- A header that ends only further back is cut off there, with all lines in front. -/
theorem trimHeader_append_of_forall (hfront : ∀ line ∈ front, ¬rules.isHeaderEnd line)
    (hback : ∃ line ∈ back, rules.isHeaderEnd line) :
    rules.trimHeader (front ++ back) = rules.trimHeader back := by
  induction front with
  | nil => rfl
  | cons line front ih =>
      obtain ⟨hline, hfront⟩ := List.forall_mem_cons.mp hfront
      have happend : ∃ other ∈ front ++ back, rules.isHeaderEnd other := by
        obtain ⟨other, hother, hend⟩ := hback
        exact ⟨other, List.mem_append_right front hother, hend⟩
      rw [List.cons_append, trimHeader_cons_of_exists hline happend, ih hfront]

/-- Nothing is cut off if no line ends a header, or if the first one does and is kept. -/
theorem trimHeader_eq_self_iff : rules.trimHeader lines = lines ↔
    (∀ line ∈ lines, ¬rules.isHeaderEnd line) ∨
      rules.headerCut = .keepEndLine ∧ ∃ line ∈ lines.head?, rules.isHeaderEnd line := by
  cases lines with
  | nil => simp [trimHeader]
  | cons line lines =>
      by_cases hline : rules.isHeaderEnd line
      · rw [trimHeader_cons_of_isHeaderEnd hline]
        cases hcut : rules.headerCut <;> simp [hline]
      · constructor
        · intro hself
          refine Or.inl fun other hother hend => ?_
          have hlines : ∃ other ∈ lines, rules.isHeaderEnd other := by
            rcases List.mem_cons.mp hother with rfl | hother
            · exact absurd hend hline
            · exact ⟨other, hother, hend⟩
          -- What is left is part of the lines below, so the first line is missing.
          have hle := (rules.trimHeader_suffix lines).length_le
          rw [← trimHeader_cons_of_exists hline hlines, hself, List.length_cons] at hle
          omega
        · rintro (hnone | ⟨-, other, hother, hend⟩)
          · exact trimHeader_of_forall hnone
          · obtain rfl := Option.some.inj hother
            exact absurd hend hline

theorem exists_trimHeader_eq_cons (hcut : rules.headerCut = .keepEndLine)
    (h : ∃ line ∈ lines, rules.isHeaderEnd line) :
    ∃ endLine rest, rules.trimHeader lines = endLine :: rest ∧ rules.isHeaderEnd endLine := by
  induction lines with
  | nil => simp at h
  | cons line lines ih =>
      by_cases hline : rules.isHeaderEnd line
      · refine ⟨line, lines, ?_, hline⟩
        rw [trimHeader_cons_of_isHeaderEnd hline, hcut]
      · have hlines : ∃ other ∈ lines, rules.isHeaderEnd other := by simpa [hline] using h
        rw [trimHeader_cons_of_exists hline hlines]
        exact ih hlines

/-- How many lines are cut off. -/
def headerLength (rules : DialectRules) (lines : List Line) : Nat :=
  lines.length - (rules.trimHeader lines).length

theorem trimHeader_eq_drop (rules : DialectRules) (lines : List Line) :
    rules.trimHeader lines = lines.drop (rules.headerLength lines) :=
  List.suffix_iff_eq_drop.mp (rules.trimHeader_suffix lines)

/-- The cut ends within the lines in front if the header does, or if nothing behind them would be
cut off by itself. -/
theorem headerLength_append_le_iff : rules.headerLength (front ++ back) ≤ front.length ↔
    (∃ line ∈ front, rules.isHeaderEnd line) ∨ rules.trimHeader back = back := by
  by_cases hfront : ∃ line ∈ front, rules.isHeaderEnd line
  · have hle := (rules.trimHeader_suffix front).length_le
    rw [headerLength, trimHeader_append_of_exists hfront, List.length_append, List.length_append]
    simp only [hfront, true_or, iff_true]
    omega
  · have hnone : ∀ line ∈ front, ¬rules.isHeaderEnd line := by simpa using hfront
    by_cases hback : ∃ line ∈ back, rules.isHeaderEnd line
    · have hsuffix := rules.trimHeader_suffix back
      have hle := hsuffix.length_le
      rw [headerLength, trimHeader_append_of_forall hnone hback, List.length_append]
      simp only [hfront, false_or]
      constructor
      · intro hcut
        exact hsuffix.eq_of_length (by omega)
      · intro hself
        rw [hself]
        omega
    · have hnone' : ∀ line ∈ back, ¬rules.isHeaderEnd line := by simpa using hback
      have hall : ∀ line ∈ front ++ back, ¬rules.isHeaderEnd line := fun line hline =>
        (List.mem_append.mp hline).elim (hnone line) (hnone' line)
      rw [headerLength, trimHeader_of_forall hall, trimHeader_of_forall hnone']
      simp

/-- The cut ends above a line that ends no header if it ends there or nowhere. -/
theorem headerLength_append_cons_le_iff (rules : DialectRules) (front back : List Line)
    {line : Line} (hline : ¬rules.isHeaderEnd line) :
    rules.headerLength (front ++ line :: back) ≤ front.length ↔
      (∃ other ∈ front, rules.isHeaderEnd other) ∨
        ∀ other ∈ front ++ line :: back, ¬rules.isHeaderEnd other := by
  rw [headerLength_append_le_iff, trimHeader_eq_self_iff]
  constructor
  · rintro (hfront | hnone | ⟨-, other, hother, hend⟩)
    · exact Or.inl hfront
    · by_cases hfront : ∃ other ∈ front, rules.isHeaderEnd other
      · exact Or.inl hfront
      · refine Or.inr fun other hother hend => ?_
        rcases List.mem_append.mp hother with hother | hother
        · exact hfront ⟨other, hother, hend⟩
        · exact hnone other hother hend
    · obtain rfl := Option.some.inj hother
      exact absurd hend hline
  · rintro (hfront | hnone)
    · exact Or.inl hfront
    · exact Or.inr (Or.inl fun other hother => hnone other (List.mem_append_right _ hother))

end DialectRules

namespace Sample

/-- **A standalone source ends with the whole unit and the epilogue only if the header ends above
the unit.** That is so if a line of the prologue ends the header, if neither the unit nor the
epilogue has such a line, or if the unit begins with such a line and the dialect keeps it; then
nothing but lines of the prologue is cut off. Otherwise the cut goes into the unit. -/
theorem standalone_keeps_unit_iff (dialect : Dialect) (lines : List Line) {u : SampleUnit}
    (hu : u ∈ (ofLines dialect.rules lines).units) :
    let rules := dialect.rules
    let sample := ofLines rules lines
    let own := u.body ++ if rules.requiresEpilogue then sample.epilogue else []
    (own <:+ sample.standalone rules u none ↔
      (∃ line ∈ sample.prologue, rules.isHeaderEnd line) ∨
        (∀ line ∈ own, ¬rules.isHeaderEnd line) ∨
        rules.headerCut = .keepEndLine ∧ ∃ line ∈ u.body.head?, rules.isHeaderEnd line) ∧
    (own <:+ sample.standalone rules u none →
      ∃ front, front <:+ sample.prologue ∧ sample.standalone rules u none = front ++ own) := by
  intro rules sample own
  have hlines : sample.standalone rules u none = (sample.prologue ++ own).drop
      (rules.headerLength (sample.prologue ++ own)) := by
    rw [← rules.trimHeader_eq_drop, ← List.append_assoc]
    rfl
  have hbody : ∃ line rest, u.body = line :: rest := by
    have hrange := (units_parts rules lines).range u hu
    have hlength : u.body.length = u.stop - u.start := by
      rw [(units_parts rules lines).body u hu, length_linesBetween hrange.2]
    exact List.exists_cons_of_length_pos (by omega)
  have hhead : own.head? = u.body.head? := by
    obtain ⟨line, rest, hbody⟩ := hbody
    rw [List.head?_append, hbody]
    rfl
  have hsuffix : own <:+ sample.standalone rules u none ↔
      rules.headerLength (sample.prologue ++ own) ≤ sample.prologue.length := by
    constructor
    · intro h
      have hle := h.length_le
      have hpos : 0 < own.length := by
        obtain ⟨line, rest, hbody⟩ := hbody
        simp [own, hbody]
      have htotal : (sample.prologue ++ own).length = sample.prologue.length + own.length :=
        List.length_append
      rw [hlines, List.length_drop] at hle
      omega
    · intro h
      rw [hlines, List.drop_append_of_le_length h]
      exact List.suffix_append _ _
  constructor
  · rw [hsuffix, DialectRules.headerLength_append_le_iff, DialectRules.trimHeader_eq_self_iff,
      hhead]
  · intro h
    rw [hlines, List.drop_append_of_le_length (hsuffix.mp h)]
    exact ⟨_, List.drop_suffix _ _, rfl⟩

/-- A script that begins with the comment of its only routine. -/
def bareScript : List Line :=
  ["/**\n", " * x-ms-original-file: a/examples/B.json\n", " */\n", "async function b() \x7b\n",
    "\x7d\n", "b().catch(console.error);\n"]

/-- Above its routine the script has no line that ends a header, so the comment of the routine is
cut off with its marker. -/
theorem standalone_cuts_into_unit :
    ¬∀ (dialect : Dialect) (lines : List Line) (u : SampleUnit),
      u ∈ (ofLines dialect.rules lines).units →
      (u.body ++ if dialect.rules.requiresEpilogue then (ofLines dialect.rules lines).epilogue
        else []) <:+ (ofLines dialect.rules lines).standalone dialect.rules u none := by
  intro h
  have hunit : ⟨some "a/examples/B.json", 0, 6, bareScript⟩ ∈
      (ofLines Dialect.javaScript.rules bareScript).units := by decide +kernel
  have hcut := h .javaScript bareScript _ hunit
  revert hcut
  decide +kernel

/-- A class with a header, whose routine is kept whole. -/
theorem standalone_keeps_unit_classWithHeader :
    let rules := Dialect.java.rules
    let lines : List Line :=
      ["// generated\n", "package a;\n", "class A \x7b\n",
        "    // * x-ms-original-file: a/examples/A.json\n",
        "     * x-ms-original-file: a/examples/B.json\n", "    public static void b() \x7b\n",
        "package b;\n", "    \x7d\n", "\x7d\n"]
    let u : SampleUnit :=
      ⟨some "a/examples/B.json", 3, 8, (lines.take 8).drop 3⟩
    let own := u.body ++ (ofLines rules lines).epilogue
    u ∈ (ofLines rules lines).units ∧ own <:+ (ofLines rules lines).standalone rules u none ∧
      ∃ front, front <:+ (ofLines rules lines).prologue ∧
        (ofLines rules lines).standalone rules u none = front ++ own := by
  intro rules lines u own
  have hu : u ∈ (ofLines rules lines).units := by decide +kernel
  obtain ⟨hiff, hfront⟩ := standalone_keeps_unit_iff .java lines hu
  have hkept := hiff.mpr (Or.inl (by decide +kernel))
  exact ⟨hu, hkept, hfront hkept⟩

end Sample

end SampleHarvest
