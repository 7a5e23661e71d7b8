import SampleHarvest.Proofs.Path.Parent

/-!
# The paths of references

The folder of a target is put together from names without slashes, so its path has no empty part,
however many slashes the reference has. A dot is kept like a name, but it adds no component. So two
such paths have the same components exactly if they differ in dots only.
-/

namespace SampleHarvest

namespace Text

variable {separator : Char} {t front back : Text}

theorem not_mem_of_splitLast?_eq_none (h : splitLast? separator t = none) : separator ∉ t := by
  induction t with
  | nil => exact List.not_mem_nil
  | cons c t ih =>
      rw [splitLast?] at h
      cases hrest : splitLast? separator t with
      | some parts => rw [hrest] at h; cases h
      | none =>
          rw [hrest] at h
          dsimp only at h
          split_ifs at h with hc
          intro hmem
          rcases List.mem_cons.mp hmem with heq | hmem
          · exact hc heq.symm
          · exact ih hrest hmem

/-- What follows the last separator has none. -/
theorem not_mem_of_splitLast? (h : splitLast? separator t = some (front, back)) :
    separator ∉ back := by
  induction t generalizing front with
  | nil => cases h
  | cons c t ih =>
      rw [splitLast?] at h
      cases hrest : splitLast? separator t with
      | some parts => rw [hrest] at h; cases h; exact ih hrest
      | none =>
          rw [hrest] at h
          dsimp only at h
          split_ifs at h
          cases h
          exact not_mem_of_splitLast?_eq_none hrest

/-- The parts of a text give the text again. -/
theorem joinWith_splitOn (t : Text) : joinWith "/" (splitOn '/' t) = t := by
  induction t with
  | nil => rfl
  | cons c t ih =>
      obtain ⟨part, parts, hparts⟩ := List.exists_cons_of_ne_nil (splitOn_ne_nil '/' t)
      rw [splitOn]
      rw [hparts] at ih ⊢
      split_ifs with hc
      · rw [hc, joinWith, ih]
        · rfl
        · exact List.cons_ne_nil _ _
      · cases parts with
        | nil => exact congrArg (c :: ·) ih
        | cons next parts => exact congrArg (c :: ·) ih

theorem joinWith_ne_nil {part : Text} (hpart : part ≠ []) (parts : List Text) :
    joinWith "/" (part :: parts) ≠ [] := by
  cases parts with
  | nil => exact hpart
  | cons next parts =>
      rw [joinWith, List.append_assoc]
      · exact List.append_ne_nil_of_left_ne_nil hpart _
      · exact List.cons_ne_nil next parts

/-- What follows the last separator is the last part. -/
theorem splitOn_of_splitLast? (h : splitLast? '/' t = some (front, back)) :
    splitOn '/' t = splitOn '/' front ++ [back] := by
  rw [eq_of_splitLast? h, splitOn_append, Path.splitOn_eq_singleton (not_mem_of_splitLast? h)]

end Text

theorem Dialect.slash_not_mem_folderSuffix (dialect : Dialect) :
    '/' ∉ dialect.rules.folderSuffix := by
  cases dialect <;> decide

namespace Target

variable {target : Target}

/-! ### The names of a reference -/

def folderNames (reference : Text) : List Text :=
  ((normalize reference).splitOn '/').dropLast.filter fun name => !name.isEmpty

def fileName (reference : Text) : Text :=
  ((normalize reference).splitOn '/').getLast (Text.splitOn_ne_nil _ _)

theorem ofReference_eq (reference suffix : Text) : ofReference reference suffix =
    { folder := Text.joinWith "/" (suffixFolder suffix (folderNames reference))
      stem := (fileName reference).takeWhile fun c => c ≠ '.' } := by
  unfold ofReference folderNames fileName
  dsimp only
  cases hsplit : (normalize reference).splitLast? '/' with
  | none =>
      have hparts := Path.splitOn_eq_singleton (Text.not_mem_of_splitLast?_eq_none hsplit)
      simp [hparts, Text.splitOn]
  | some parts => simp [Text.splitOn_of_splitLast? hsplit]

theorem mem_folderNames {reference name : Text} (h : name ∈ folderNames reference) :
    name ≠ [] ∧ '/' ∉ name := by
  obtain ⟨hmem, hne⟩ := List.mem_filter.mp h
  exact ⟨by simpa using hne, Text.not_mem_of_mem_splitOn (List.dropLast_subset _ hmem)⟩

theorem slash_not_mem_fileName (reference : Text) : '/' ∉ fileName reference :=
  Text.not_mem_of_mem_splitOn (List.getLast_mem _)

/-! ### No empty parts -/

/-- The parts of a target's path are those of its folder and then the file name. -/
theorem splitOn_documentPath {parts : List Text}
    (hfolder : target.folder = Text.joinWith "/" parts)
    (hparts : ∀ part ∈ parts, part ≠ [] ∧ '/' ∉ part) (hstem : '/' ∉ target.stem) :
    Text.splitOn '/' target.documentPath = parts ++ [target.stem ++ (".md" : Text)] := by
  have hfile : Text.splitOn '/' (target.stem ++ (".md" : Text)) = [target.stem ++ (".md" : Text)] := by
    refine Path.splitOn_eq_singleton fun hmem => ?_
    rcases List.mem_append.mp hmem with hmem | hmem
    · exact hstem hmem
    · exact absurd hmem (by decide)
  unfold documentPath
  cases parts with
  | nil =>
      rw [hfolder, Text.joinWith]
      exact hfile
  | cons part parts =>
      have hne : target.folder ≠ [] :=
        hfolder ▸ Text.joinWith_ne_nil (hparts part List.mem_cons_self).1 parts
      rw [if_neg (by simpa using hne), List.append_assoc, List.append_assoc]
      show Text.splitOn '/' (target.folder ++ '/' :: (target.stem ++ (".md" : Text))) = _
      rw [Text.splitOn_append, hfile, hfolder,
        Text.splitOn_joinWith (List.cons_ne_nil part parts)
          fun other hother => (hparts other hother).2]

theorem mem_suffixFolder {suffix : Text} {names : List Text} {part : Text}
    (h : part ∈ suffixFolder suffix names) : ∃ name ∈ names, part = name ∨ part = name ++ suffix := by
  unfold suffixFolder at h
  split_ifs at h
  · obtain ⟨name, hname, rfl⟩ := List.mem_map.mp h
    refine ⟨name, hname, ?_⟩
    split_ifs
    · exact Or.inr rfl
    · exact Or.inl rfl
  · induction names with
    | nil => cases h
    | cons name names ih =>
        cases names with
        | nil =>
            rw [List.mem_singleton.mp h]
            exact ⟨name, List.mem_cons_self, Or.inr rfl⟩
        | cons next names =>
            rcases List.mem_cons.mp h with rfl | h
            · exact ⟨part, List.mem_cons_self, Or.inl rfl⟩
            · obtain ⟨other, hother, hpart⟩ := ih (by simp_all) h
              exact ⟨other, List.mem_cons_of_mem _ hother, hpart⟩

variable {reference suffix : Text}

theorem mem_suffixFolder_folderNames (hsuffix : '/' ∉ suffix) :
    ∀ part ∈ suffixFolder suffix (folderNames reference), part ≠ [] ∧ '/' ∉ part := by
  intro part hpart
  obtain ⟨name, hname, hpart⟩ := mem_suffixFolder hpart
  obtain ⟨hne, hslash⟩ := mem_folderNames hname
  rcases hpart with rfl | rfl
  · exact ⟨hne, hslash⟩
  · exact ⟨List.append_ne_nil_of_left_ne_nil hne _,
      fun hmem => (List.mem_append.mp hmem).elim hslash hsuffix⟩

/-- The parts of the path are the names of the folders, with the suffix, and then the file name. -/
theorem splitOn_ofReference (hsuffix : '/' ∉ suffix) :
    Text.splitOn '/' (ofReference reference suffix).documentPath =
      suffixFolder suffix (folderNames reference) ++
        [(ofReference reference suffix).stem ++ (".md" : Text)] := by
  have hstem : '/' ∉ (fileName reference).takeWhile fun c => c ≠ '.' := fun hmem =>
    slash_not_mem_fileName reference ((List.takeWhile_sublist _).subset hmem)
  rw [ofReference_eq]
  exact splitOn_documentPath rfl (mem_suffixFolder_folderNames hsuffix) hstem

/-- However many slashes a reference has, the path of its target has no empty part. -/
theorem nil_not_mem_ofReference (reference : Text) {suffix : Text} (hsuffix : '/' ∉ suffix) :
    [] ∉ Text.splitOn '/' (ofReference reference suffix).documentPath := by
  intro hempty
  rw [splitOn_ofReference hsuffix] at hempty
  rcases List.mem_append.mp hempty with hempty | hempty
  · exact (mem_suffixFolder_folderNames hsuffix [] hempty).1 rfl
  · exact absurd (List.mem_singleton.mp hempty).symm
      (List.append_ne_nil_of_right_ne_nil _ (by decide))

end Target

/-! ### Dots -/

def Path.dotlessParts (path : Path) : List Text := (Text.splitOn '/' path).filter (· ≠ ".")

namespace Target

/-- Without empty parts, two paths of contained targets have the same components exactly if they
differ in dots only. -/
theorem components_eq_iff {a b : Target} (ha : a.isContained) (hb : b.isContained)
    (hpartsA : [] ∉ Text.splitOn '/' a.documentPath)
    (hpartsB : [] ∉ Text.splitOn '/' b.documentPath) :
    Path.components a.documentPath = Path.components b.documentPath ↔
      a.documentPath.dotlessParts = b.documentPath.dotlessParts := by
  have hparts : ∀ {target : Target}, target.isContained →
      [] ∉ Text.splitOn '/' target.documentPath →
      Path.components target.documentPath =
        (Path.dotlessParts target.documentPath).map Path.Component.name := by
    intro target hcontained hnil
    rw [components_eq hcontained, Path.dotlessParts]
    refine congrArg (List.map Path.Component.name) (List.filter_congr fun part hpart => ?_)
    have hne : part ≠ [] := fun heq => hnil (heq ▸ hpart)
    simp [Path.isIdlePart, hne]
  rw [hparts ha hpartsA, hparts hb hpartsB, List.map_inj_right fun _ _ => Path.Component.name.inj]

end Target

namespace Path

theorem eq_of_dotlessParts {a b : Path} (ha : ("." : Text) ∉ Text.splitOn '/' a)
    (hb : ("." : Text) ∉ Text.splitOn '/' b) (h : a.dotlessParts = b.dotlessParts) : a = b := by
  have hall : ∀ {path : Path}, ("." : Text) ∉ Text.splitOn '/' path →
      path.dotlessParts = Text.splitOn '/' path := fun hdot =>
    List.filter_eq_self.mpr fun part hpart => decide_eq_true fun heq => hdot (heq ▸ hpart)
  rw [hall ha, hall hb] at h
  rw [← Text.joinWith_splitOn a, h, Text.joinWith_splitOn]

end Path

end SampleHarvest
