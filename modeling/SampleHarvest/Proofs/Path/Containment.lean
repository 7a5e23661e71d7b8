import SampleHarvest.Proofs.Path.Order

/-!
# Contained targets

A target is contained if its path is relative, has no part that leads up and does not begin with a
dot. The components of such a path below an output root are those of the root and then some names.

A path that stands above another one has leading parts of it.
-/

namespace SampleHarvest

namespace Text

variable {separator : Char}

theorem not_mem_of_mem_splitOn {t part : Text} (h : part ∈ splitOn separator t) :
    separator ∉ part := by
  induction t generalizing part with
  | nil =>
      rw [List.mem_singleton.mp h]
      exact List.not_mem_nil
  | cons c t ih =>
      rw [splitOn] at h
      split_ifs at h with hc
      · rcases List.mem_cons.mp h with rfl | h
        · exact List.not_mem_nil
        · exact ih h
      · obtain ⟨first, parts, hparts⟩ := List.exists_cons_of_ne_nil (splitOn_ne_nil separator t)
        rw [hparts] at h ih
        rcases List.mem_cons.mp h with rfl | h
        · intro hmem
          rcases List.mem_cons.mp hmem with heq | hmem
          · exact hc heq.symm
          · exact ih List.mem_cons_self hmem
        · exact ih (List.mem_cons_of_mem _ h)

/-- Parts without slashes can be taken out of the text that they are joined to. -/
theorem splitOn_joinWith {parts : List Text} (hne : parts ≠ []) (h : ∀ part ∈ parts, '/' ∉ part) :
    splitOn '/' (joinWith "/" parts) = parts := by
  induction parts with
  | nil => exact absurd rfl hne
  | cons part parts ih =>
      have hpart : splitOn '/' part = [part] :=
        Path.splitOn_eq_singleton (h part List.mem_cons_self)
      cases parts with
      | nil => exact hpart
      | cons next parts =>
          rw [joinWith, List.append_assoc]
          change splitOn '/' (part ++ '/' :: joinWith "/" (next :: parts)) = _
          rw [splitOn_append, hpart, List.singleton_append,
            ih (List.cons_ne_nil _ _) fun other hother => h other (List.mem_cons_of_mem _ hother)]
          nofun

end Text

namespace Path

variable {path above : Path}

/-! ### Components -/

theorem ofPart?_eq_some {part : Text} {component : Component}
    (h : Component.ofPart? part = some component) :
    component = .up ∨ component = .name part := by
  rw [Component.ofPart?] at h
  split_ifs at h
  · exact Or.inl (Option.some.inj h).symm
  · exact Or.inr (Option.some.inj h).symm

/-- The root and a dot can only come first. -/
theorem exists_components_eq (path : Path) :
    ∃ front back, components path = front ++ back ∧
      (isAbsolute path ∧ front = [.root] ∨ ¬isAbsolute path ∧ (front = [] ∨ front = [.here])) ∧
      ∀ component ∈ back, component = .up ∨ component.isName := by
  have hback : ∀ (parts : List Text), ∀ component ∈ parts.filterMap Component.ofPart?,
      component = .up ∨ component.isName := by
    intro parts component hmem
    obtain ⟨part, -, hpart⟩ := List.mem_filterMap.mp hmem
    rcases ofPart?_eq_some hpart with rfl | rfl
    · exact Or.inl rfl
    · exact Or.inr rfl
  obtain ⟨first, parts, hsplit⟩ := List.exists_cons_of_ne_nil (Text.splitOn_ne_nil '/' path)
  rw [components_eq, hsplit]
  by_cases hfirst : isIdlePart first
  · refine ⟨_, parts.filterMap Component.ofPart?, rfl, ?_, hback parts⟩
    by_cases habsolute : isAbsolute path
    · obtain ⟨rest, rfl⟩ := isAbsolute_iff.mp habsolute
      rw [Text.splitOn, if_pos rfl] at hsplit
      obtain ⟨rfl, -⟩ := List.cons.inj hsplit
      exact Or.inl ⟨habsolute, by rw [if_pos rfl, if_pos habsolute]⟩
    · refine Or.inr ⟨habsolute, ?_⟩
      rw [if_neg habsolute]
      split_ifs with hempty hdot
      · exact Or.inl rfl
      · exact Or.inr rfl
      · rw [isIdlePart, Bool.or_eq_true, List.isEmpty_iff, decide_eq_true_eq] at hfirst
        exact absurd hfirst (not_or.mpr ⟨hempty, hdot⟩)
  · exact ⟨[], (first :: parts).filterMap Component.ofPart?, componentsOf_first hfirst _ parts,
      Or.inr ⟨not_isAbsolute_of_first hsplit hfirst, Or.inl rfl⟩, hback (first :: parts)⟩

/-- A path has only names if it is relative, leads nowhere up and does not begin with a dot. -/
theorem all_isName_iff :
    (components path).all Component.isName ↔
      ¬isAbsolute path ∧ .up ∉ components path ∧ (components path).head? ≠ some .here := by
  obtain ⟨front, back, hcomponents, hfront, hback⟩ := exists_components_eq path
  rw [hcomponents, List.all_eq_true]
  constructor
  · intro hname
    refine ⟨fun habsolute => ?_, fun hup => ?_, fun hhere => ?_⟩
    · obtain ⟨-, rfl⟩ := hfront.resolve_right fun h => h.1 habsolute
      exact absurd (hname .root List.mem_cons_self) nofun
    · exact absurd (hname .up hup) nofun
    · exact absurd (hname .here (List.mem_of_mem_head? hhere)) nofun
  · rintro ⟨hrelative, hup, hhere⟩ component hmem
    rcases hfront with ⟨habsolute, -⟩ | ⟨-, rfl | rfl⟩
    · exact absurd habsolute hrelative
    · exact (hback component hmem).resolve_left fun heq => hup (heq ▸ hmem)
    · exact absurd rfl hhere

/-! ### Paths above others -/

theorem prefix_trimParts (parts : List Text) : trimParts parts <+: parts := by
  cases parts with
  | nil => exact List.prefix_rfl
  | cons first rest =>
      rw [trimParts]
      refine List.cons_prefix_cons.mpr ⟨rfl, ?_⟩
      rw [← List.reverse_suffix, List.reverse_reverse]
      exact List.dropWhile_suffix _

/-- A path is absolute if its first part is empty and it is not empty itself. -/
theorem isAbsolute_iff_head (hne : path ≠ []) :
    isAbsolute path ↔ (Text.splitOn '/' path).head? = some [] := by
  rw [isAbsolute_iff]
  obtain ⟨c, rest, rfl⟩ := List.exists_cons_of_ne_nil hne
  rw [Text.splitOn]
  split_ifs with hc
  · exact ⟨fun _ => rfl, fun _ => ⟨rest, by rw [hc]⟩⟩
  · obtain ⟨first, parts, hparts⟩ := List.exists_cons_of_ne_nil (Text.splitOn_ne_nil '/' rest)
    rw [hparts]
    constructor
    · rintro ⟨other, hother⟩
      exact absurd (List.cons.inj hother).1 hc
    · intro h
      cases h

/-- The parent of a path has leading parts of it, unless it is the root or empty. -/
theorem parent?_parts (h : parent? path = some above) (hne : above ≠ []) (hroot : above ≠ "/") :
    Text.splitOn '/' above <+: Text.splitOn '/' path ∧ isAbsolute above = isAbsolute path := by
  have hparts : ∃ parts, parts ≠ [] ∧ parts <+: Text.splitOn '/' path ∧
      2 ≤ (Text.splitOn '/' path).length ∧ above = ofParts parts := by
    have hleading := prefix_trimParts (Text.splitOn '/' path)
    rw [parent?] at h
    generalize trimParts (Text.splitOn '/' path) = trimmed at h hleading
    match trimmed, h with
    | [first], h =>
        dsimp only at h
        split_ifs at h
        cases h
        exact absurd rfl hne
    | first :: second :: rest, h =>
        cases h
        refine ⟨trimParts (first :: second :: rest).dropLast, List.cons_ne_nil _ _, ?_, ?_, rfl⟩
        · exact (prefix_trimParts _).trans ((List.dropLast_prefix _).trans hleading)
        · exact Nat.le_trans (Nat.le_add_left 2 _) hleading.length_le
  obtain ⟨parts, hnil, hleading, hlength, rfl⟩ := hparts
  have hsplit : Text.splitOn '/' (ofParts parts) = parts := by
    have hjoin : ofParts parts = Text.joinWith "/" parts := by
      unfold ofParts at hroot ⊢
      split
      · exact absurd rfl hroot
      · rfl
    rw [hjoin]
    exact Text.splitOn_joinWith hnil fun part hmem =>
      Text.not_mem_of_mem_splitOn (hleading.subset hmem)
  refine ⟨hsplit.symm ▸ hleading, ?_⟩
  have hpath : path ≠ [] := by
    rintro rfl
    exact absurd hlength (by decide)
  have hhead : parts.head? = (Text.splitOn '/' path).head? := by
    obtain ⟨first, rest, rfl⟩ := List.exists_cons_of_ne_nil hnil
    obtain ⟨more, hmore⟩ := hleading
    rw [← hmore]
    rfl
  rw [Bool.eq_iff_iff, isAbsolute_iff_head hne, isAbsolute_iff_head hpath, hsplit, hhead]

end Path

namespace Target

variable {target : Target}

theorem isContained_iff :
    target.isContained ↔
      target.stem ≠ [] ∧ ¬Path.isAbsolute target.documentPath ∧
        .up ∉ Path.components target.documentPath ∧
        (Path.components target.documentPath).head? ≠ some .here := by
  rw [isContained, Bool.and_eq_true, Path.all_isName_iff]
  simp

/-- The path of a contained target begins with a part that counts. -/
theorem exists_first (h : target.isContained) :
    ∃ first parts, Text.splitOn '/' target.documentPath = first :: parts ∧
      ¬Path.isIdlePart first := by
  obtain ⟨text, hne, htext⟩ := exists_documentPath h
  obtain ⟨first, parts, hsplit⟩ :=
    List.exists_cons_of_ne_nil (Text.splitOn_ne_nil '/' target.documentPath)
  refine ⟨first, parts, hsplit, ?_⟩
  rw [Path.isIdlePart, Bool.or_eq_true, not_or, List.isEmpty_iff, decide_eq_true_eq]
  constructor
  · rintro rfl
    have hpath : target.documentPath ≠ [] := by
      rw [htext]
      exact List.append_ne_nil_of_left_ne_nil hne _
    exact not_isAbsolute h ((Path.isAbsolute_iff_head hpath).mpr (by rw [hsplit]; rfl))
  · rintro rfl
    have hhere : .here ∈ Path.components target.documentPath := by
      rw [Path.components_eq, hsplit, Path.componentsOf, if_neg (by decide), if_pos rfl]
      exact List.mem_append_left _ (List.mem_singleton_self _)
    have hname := (isContained_names h).2 _ hhere
    cases hname

/-- Below an output root the path of a contained target adds file names to what the root has. -/
theorem components_join (h : target.isContained) (root : Path) :
    ∃ names, names ≠ [] ∧ (∀ name ∈ names, Path.IsFileName name) ∧
      Path.components (Path.join root target.documentPath) =
        Path.components root ++ names.map Path.Component.name := by
  obtain ⟨first, parts, hsplit, hfirst⟩ := exists_first h
  refine ⟨_, ?_, ?_, by rw [Path.components_join_below hsplit hfirst, components_eq h]⟩
  · rw [hsplit, List.filter_cons_of_pos (by simpa using hfirst)]
    exact List.cons_ne_nil _ _
  · intro name hname
    obtain ⟨hpart, hidle⟩ := List.mem_filter.mp hname
    refine ⟨by simpa using hidle, ?_, Text.not_mem_of_mem_splitOn hpart⟩
    rintro rfl
    exact up_not_mem h hpart

/-- A target has a place below a root exactly if it is contained. -/
theorem resolveUnder?_isSome_iff (root : Path) :
    (target.resolveUnder? root).isSome ↔
      target.stem ≠ [] ∧ ¬Path.isAbsolute target.documentPath ∧
        .up ∉ Path.components target.documentPath ∧
        (Path.components target.documentPath).head? ≠ some .here := by
  rw [← isContained_iff, resolveUnder?]
  split_ifs with h <;> simp [h]

end Target

end SampleHarvest
