import Mathlib.Tactic.SplitIfs
import SampleHarvest.Target

/-!
# Paths below a folder

The parts of a joined path are those of the folder and then those of the path below it. A contained
target goes down only: it has names, no dots that lead up, and a file name at its end.
-/

namespace SampleHarvest

namespace Text

variable {separator : Char}

theorem splitOn_ne_nil (separator : Char) (t : Text) : splitOn separator t ≠ [] := by
  cases t with
  | nil => exact List.cons_ne_nil _ _
  | cons c t =>
      rw [splitOn]
      split_ifs
      · exact List.cons_ne_nil _ _
      · cases splitOn separator t <;> exact List.cons_ne_nil _ _

theorem splitOn_append (a b : Text) :
    splitOn separator (a ++ separator :: b) = splitOn separator a ++ splitOn separator b := by
  induction a with
  | nil => rw [List.nil_append, splitOn.eq_2, if_pos rfl, splitOn, List.singleton_append]
  | cons c a ih =>
      rw [List.cons_append, splitOn, splitOn, ih]
      split_ifs
      · rfl
      · obtain ⟨part, parts, hparts⟩ := List.exists_cons_of_ne_nil (splitOn_ne_nil separator a)
        rw [hparts]
        rfl

/-- What follows the last separator belongs to the last part. -/
theorem exists_splitOn_append (a : Text) {b : Text} (hb : separator ∉ b) :
    ∃ front last, splitOn separator (a ++ b) = front ++ [last ++ b] := by
  induction a with
  | nil =>
      refine ⟨[], [], ?_⟩
      induction b with
      | nil => rfl
      | cons c b ih =>
          obtain ⟨hc, hb⟩ := not_or.mp (mt List.mem_cons.mpr hb)
          rw [List.nil_append] at ih
          rw [List.nil_append, splitOn, if_neg (Ne.symm hc), ih hb]
          rfl
  | cons c a ih =>
      obtain ⟨front, last, hsplit⟩ := ih
      rw [List.cons_append, splitOn, hsplit]
      split_ifs
      · exact ⟨[] :: front, last, rfl⟩
      · cases front with
        | nil => exact ⟨[], c :: last, rfl⟩
        | cons part front => exact ⟨(c :: part) :: front, last, rfl⟩

end Text

namespace Path

/-- The parts of a folder that the parts of a path below it follow. -/
def baseParts (base : Path) : List Text :=
  if base.isEmpty || Text.endsWith base "/" then (Text.splitOn '/' base).dropLast
  else Text.splitOn '/' base

theorem splitOn_join {base rest : Path} (h : ¬isAbsolute rest) :
    Text.splitOn '/' (join base rest) = baseParts base ++ Text.splitOn '/' rest := by
  rw [join, if_neg h, baseParts]
  split_ifs with hend
  · cases base with
    | nil => rfl
    | cons c base =>
        obtain ⟨front, hfront⟩ :=
          List.isSuffixOf_iff_suffix.mp (show Text.endsWith (c :: base) "/" from hend)
        rw [← hfront, List.append_assoc]
        change Text.splitOn '/' (front ++ '/' :: rest) =
          (Text.splitOn '/' (front ++ '/' :: [])).dropLast ++ Text.splitOn '/' rest
        rw [Text.splitOn_append, Text.splitOn_append, Text.splitOn, List.dropLast_concat]
  · rw [List.append_assoc]
    exact Text.splitOn_append base rest

theorem isAbsolute_join {base rest : Path} (h : ¬isAbsolute rest) :
    isAbsolute (join base rest) = isAbsolute base := by
  rw [join, if_neg h]
  cases base with
  | nil => exact Bool.eq_false_iff.mpr h
  | cons c base => split_ifs <;> rfl

theorem isAbsolute_iff {path : Path} : isAbsolute path ↔ ∃ rest, path = '/' :: rest := by
  cases path with
  | nil => exact ⟨nofun, fun ⟨_, h⟩ => nomatch h⟩
  | cons c path =>
      refine ⟨fun h => ⟨path, ?_⟩, fun ⟨rest, h⟩ => ?_⟩
      · obtain ⟨rest, hrest⟩ := List.isPrefixOf_iff_prefix.mp (show Text.startsWith _ "/" from h)
        exact congrArg (· :: path) (List.cons.inj hrest).1.symm
      · rw [(List.cons.inj h).1]
        exact List.isPrefixOf_iff_prefix.mpr ⟨path, rfl⟩

end Path

namespace Target

variable {target : Target}

theorem isContained_names (h : target.isContained) :
    target.stem ≠ [] ∧ ∀ component ∈ Path.components target.documentPath, component.isName := by
  rw [isContained, Bool.and_eq_true, List.all_eq_true] at h
  exact ⟨fun hempty => by simp [hempty] at h, h.2⟩

theorem not_isAbsolute (h : target.isContained) : ¬Path.isAbsolute target.documentPath := by
  intro habsolute
  obtain ⟨rest, hrest⟩ := Path.isAbsolute_iff.mp habsolute
  have hnames := (isContained_names h).2
  rw [Path.components, hrest, Text.splitOn, if_pos rfl] at hnames
  have hroot := hnames .root (by simp [← hrest, habsolute])
  cases hroot

/-- A part of the path of a contained target that adds a component is its name. -/
theorem ofPart?_eq (h : target.isContained) {part : Text}
    (hpart : part ∈ Text.splitOn '/' target.documentPath) :
    Path.Component.ofPart? part = if Path.isIdlePart part then none else some (.name part) := by
  have habsolute := not_isAbsolute h
  have hnames := (isContained_names h).2
  rw [Path.components] at hnames
  obtain ⟨first, parts, hparts⟩ :=
    List.exists_cons_of_ne_nil (Text.splitOn_ne_nil '/' target.documentPath)
  rw [hparts] at hpart hnames
  have hup : part ≠ ".." := by
    rintro rfl
    refine absurd (hnames .up (List.mem_append.mpr ?_)) (by nofun)
    rcases List.mem_cons.mp hpart with rfl | hpart
    · exact Or.inl List.mem_cons_self
    · exact Or.inr (List.mem_filterMap.mpr ⟨_, hpart, rfl⟩)
  rw [Path.Component.ofPart?, if_neg hup, Path.isIdlePart]
  simp

theorem up_not_mem (h : target.isContained) :
    (".." : Text) ∉ Text.splitOn '/' target.documentPath := by
  intro hup
  have hpart := ofPart?_eq h hup
  rw [if_neg (by decide)] at hpart
  cases hpart

theorem components_eq (h : target.isContained) :
    Path.components target.documentPath =
      ((Text.splitOn '/' target.documentPath).filter fun part => !Path.isIdlePart part).map
        Path.Component.name := by
  have hpart : ∀ part ∈ Text.splitOn '/' target.documentPath, Path.Component.ofPart? part =
      if Path.isIdlePart part then none else some (.name part) := fun _ => ofPart?_eq h
  have habsolute := not_isAbsolute h
  have hnames := (isContained_names h).2
  have hfilter : ∀ parts : List Text,
      (∀ part ∈ parts, Path.Component.ofPart? part =
        if Path.isIdlePart part then none else some (.name part)) →
      parts.filterMap Path.Component.ofPart? =
        (parts.filter fun part => !Path.isIdlePart part).map Path.Component.name := by
    intro parts hparts
    induction parts with
    | nil => rfl
    | cons part parts ih =>
        rw [List.filterMap_cons, hparts part List.mem_cons_self, List.filter_cons,
          ih fun part hmem => hparts part (List.mem_cons_of_mem _ hmem)]
        by_cases hidle : Path.isIdlePart part
        · simp [hidle]
        · simp [hidle]
  obtain ⟨first, parts, hparts⟩ :=
    List.exists_cons_of_ne_nil (Text.splitOn_ne_nil '/' target.documentPath)
  rw [hparts] at hpart
  rw [Path.components, hparts] at hnames ⊢
  rw [← hfilter _ hpart]
  dsimp only at hnames ⊢
  by_cases hempty : first = []
  · rw [if_pos hempty, if_neg habsolute, List.filterMap_cons]
    simp [hempty, Path.Component.ofPart?]
  · rw [if_neg hempty] at hnames ⊢
    by_cases hhere : first = "."
    · rw [if_pos hhere] at hnames
      exact absurd (hnames .here (List.mem_append_left _ (List.mem_singleton_self _))) (by nofun)
    · rw [if_neg hhere, List.filterMap_cons]
      cases Path.Component.ofPart? first <;> rfl

theorem exists_documentPath (h : target.isContained) : ∃ front : Text,
    front ≠ [] ∧ target.documentPath = front ++ (".md" : Text) := by
  have hstem := (isContained_names h).1
  rw [documentPath]
  split_ifs
  · exact ⟨target.stem, hstem, rfl⟩
  · refine ⟨target.folder ++ "/" ++ target.stem, ?_, rfl⟩
    simp

theorem exists_fileName (h : target.isContained) :
    ∃ front last, Text.splitOn '/' target.documentPath = front ++ [last] ∧
      ¬Path.isIdlePart last := by
  obtain ⟨text, -, htext⟩ := exists_documentPath h
  have hslash : '/' ∉ (".md" : Text) := by decide
  obtain ⟨front, last, hsplit⟩ := Text.exists_splitOn_append text hslash
  refine ⟨front, last ++ ".md", by rw [htext, hsplit], ?_⟩
  have hlength : 3 ≤ (last ++ (".md" : Text)).length := by simp
  rw [Path.isIdlePart, Bool.or_eq_true, not_or]
  refine ⟨fun hempty => ?_, fun hdot => ?_⟩
  · rw [List.isEmpty_iff.mp hempty] at hlength
    exact absurd hlength (by decide)
  · rw [of_decide_eq_true hdot] at hlength
    exact absurd hlength (by decide)

end Target

end SampleHarvest
