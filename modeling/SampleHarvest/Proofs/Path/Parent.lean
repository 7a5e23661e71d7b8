import SampleHarvest.Proofs.Path.Containment

/-!
# The last part of a path

A path is what is in front of its last part, that part, and idle parts behind it. Its parent has the
parts in front, and so has the same path with another extension, before a last part of its own.
-/

namespace SampleHarvest

/-- The last separator stands between the two parts. -/
theorem Text.eq_of_splitLast? {separator : Char} {t front back : Text}
    (h : splitLast? separator t = some (front, back)) : t = front ++ separator :: back := by
  induction t generalizing front with
  | nil => cases h
  | cons c t ih =>
      rw [splitLast?] at h
      cases hrest : splitLast? separator t with
      | some parts =>
          rw [hrest] at h
          cases h
          rw [ih hrest, List.cons_append]
      | none =>
          rw [hrest] at h
          dsimp only at h
          split_ifs at h with hc
          cases h
          rw [hc, List.nil_append]

namespace Path

variable {path above : Path} {front idle : List Text} {last name stem extension : Text}

/-- The parts of a path end with a last one, but for idle ones behind it. -/
structure EndsIn (path : Path) (front : List Text) (last : Text) (idle : List Text) : Prop where
  trimmed : trimParts (Text.splitOn '/' path) = front ++ [last]
  parts : Text.splitOn '/' path = front ++ last :: idle
  behind : ∀ part ∈ idle, isIdlePart part
  counts : front ≠ [] → ¬isIdlePart last

theorem trimParts_append (first : Text) (rest : List Text) : ∃ idle,
    first :: rest = trimParts (first :: rest) ++ idle ∧ (∀ part ∈ idle, isIdlePart part) ∧
    ∀ front last, trimParts (first :: rest) = front ++ [last] → front ≠ [] → ¬isIdlePart last := by
  have hrest : rest = (rest.reverse.dropWhile isIdlePart).reverse ++
      (rest.reverse.takeWhile isIdlePart).reverse := by
    rw [← List.reverse_append, List.takeWhile_append_dropWhile, List.reverse_reverse]
  refine ⟨(rest.reverse.takeWhile isIdlePart).reverse, ?_, fun part hpart => ?_, ?_⟩
  · rw [trimParts, List.cons_append, ← hrest]
  · rw [List.mem_reverse] at hpart
    exact List.all_eq_true.mp List.all_takeWhile part hpart
  · rintro (- | ⟨part, front⟩) last htrimmed hfront
    · exact absurd rfl hfront
    · have hlast := (List.cons.inj htrimmed).2
      change _ = front ++ [last] at hlast
      rw [List.reverse_eq_iff, List.reverse_concat] at hlast
      have hhead := List.head?_dropWhile_not isIdlePart rest.reverse
      rw [hlast] at hhead
      simpa using hhead

theorem exists_endsIn (path : Path) : ∃ front last idle, path.EndsIn front last idle := by
  obtain ⟨first, rest, hparts⟩ := List.exists_cons_of_ne_nil (Text.splitOn_ne_nil '/' path)
  obtain ⟨idle, happend, hidle, hcounts⟩ := trimParts_append first rest
  obtain ⟨front, last, htrimmed⟩ : ∃ front last, trimParts (first :: rest) = front ++ [last] :=
    ⟨_, _, (List.dropLast_concat_getLast (List.cons_ne_nil _ _)).symm⟩
  refine ⟨front, last, idle, hparts ▸ htrimmed, ?_, hidle, hcounts front last htrimmed⟩
  rw [hparts, happend, htrimmed, List.append_assoc, List.singleton_append]

/-! ### The parent -/

theorem all_idle_of_trimParts {parts : List Text} (h : ∀ part ∈ trimParts parts, isIdlePart part) :
    ∀ part ∈ parts, isIdlePart part := by
  cases parts with
  | nil => exact List.forall_mem_nil _
  | cons first rest =>
      obtain ⟨idle, happend, hidle, -⟩ := trimParts_append first rest
      rw [happend]
      exact fun part hpart => (List.mem_append.mp hpart).elim (h part) (hidle part)

/-- The root and the empty path have idle parts only. -/
theorem all_idle_of_parent?_eq_none (h : parent? path = none) :
    ∀ part ∈ Text.splitOn '/' path, isIdlePart part := by
  refine all_idle_of_trimParts ?_
  rw [parent?] at h
  generalize trimParts (Text.splitOn '/' path) = trimmed at h
  rcases trimmed with - | ⟨first, - | ⟨second, rest⟩⟩
  · exact List.forall_mem_nil _
  · dsimp only at h
    split_ifs at h with hempty
    rw [List.forall_mem_singleton, isIdlePart, hempty, Bool.true_or]
  · cases h

theorem EndsIn.parent? (h : path.EndsIn front last idle)
    (hfront : ¬∀ part ∈ front, isIdlePart part) : ∃ above, parent? path = some above ∧
      Text.splitOn '/' above = trimParts front ∧ isAbsolute above = isAbsolute path := by
  obtain ⟨first, rest, rfl⟩ : ∃ first rest, front = first :: rest := by
    cases front with
    | nil => exact absurd (List.forall_mem_nil _) hfront
    | cons first rest => exact ⟨first, rest, rfl⟩
  have hparent : Path.parent? path = some (ofParts (trimParts (first :: rest))) := by
    obtain ⟨second, rest', hrest⟩ := List.exists_cons_of_ne_nil (List.concat_ne_nil last rest)
    have hdrop : (first :: second :: rest').dropLast = first :: rest := by
      rw [← hrest, ← List.cons_append, List.dropLast_concat]
    rw [Path.parent?, h.trimmed, List.cons_append, hrest]
    dsimp only
    rw [hdrop]
  have hslashes : ∀ part ∈ trimParts (first :: rest), '/' ∉ part := fun part hpart =>
    Text.not_mem_of_mem_splitOn (t := path) (by
      rw [h.parts]
      exact List.mem_append_left _ ((prefix_trimParts _).subset hpart))
  have hjoin : ofParts (trimParts (first :: rest)) = Text.joinWith "/" (trimParts (first :: rest)) := by
    unfold ofParts
    split
    · next htrimmed =>
        refine absurd (all_idle_of_trimParts ?_) hfront
        rw [htrimmed]
        exact fun part hpart => by rw [List.mem_singleton.mp hpart]; rfl
    · rfl
  have hsplit : Text.splitOn '/' (ofParts (trimParts (first :: rest))) = trimParts (first :: rest) := by
    rw [hjoin]
    exact Text.splitOn_joinWith (List.cons_ne_nil _ _) hslashes
  refine ⟨_, hparent, hsplit, (parent?_parts hparent ?_ ?_).2⟩ <;>
  · intro hsame
    refine hfront (all_idle_of_trimParts ?_)
    rw [← hsplit, hsame]
    decide

/-! ### The file name -/

theorem EndsIn.fileName?_eq (h : path.EndsIn front last idle) (hname : fileName? path = some name) :
    last = name ∧ ¬isIdlePart last ∧ last ≠ ".." := by
  have hlast : (components path).getLast? = some (.name name) := by
    rw [fileName?] at hname
    split at hname
    · next text hlast => rw [hlast, Option.some.inj hname]
    · cases hname
  have hbehind : idle.filterMap Component.ofPart? = [] := by
    refine List.filterMap_eq_nil_iff.mpr fun part hpart => ?_
    have hidle := h.behind part hpart
    rw [isIdlePart, Bool.or_eq_true, List.isEmpty_iff, decide_eq_true_eq] at hidle
    exact if_pos hidle
  have hcounts : ¬isIdlePart last := by
    by_cases hfront : front = []
    · intro hidle
      rw [components_eq, h.parts, hfront, List.nil_append, componentsOf, hbehind,
        List.append_nil] at hlast
      rw [isIdlePart, Bool.or_eq_true, List.isEmpty_iff, decide_eq_true_eq] at hidle
      rcases hidle with rfl | rfl
      · rw [if_pos rfl] at hlast
        split_ifs at hlast <;> cases hlast
      · cases hlast
    · exact h.counts hfront
  have hpart : ∃ before, components path = before ++ (Component.ofPart? last).toList := by
    rw [components_eq, h.parts]
    cases front with
    | nil =>
        refine ⟨[], ?_⟩
        rw [List.nil_append, componentsOf_first hcounts, List.filterMap_cons, hbehind]
        cases Component.ofPart? last <;> rfl
    | cons first rest =>
        refine ⟨componentsOf (isAbsolute path) (first :: rest), ?_⟩
        rw [componentsOf_append (List.cons_ne_nil _ _), List.filterMap_cons, hbehind]
        cases Component.ofPart? last <;> rfl
  obtain ⟨before, hcomponents⟩ := hpart
  have hidle := hcounts
  rw [isIdlePart, Bool.or_eq_true, List.isEmpty_iff, decide_eq_true_eq] at hidle
  rw [hcomponents, Component.ofPart?, if_neg hidle] at hlast
  split_ifs at hlast with hup
  · simp at hlast
  · refine ⟨?_, hcounts, hup⟩
    simpa using hlast

/-! ### Another extension -/

theorem not_mem_stem (hname : '/' ∉ name) : '/' ∉ (splitName name).1 := by
  rw [splitName]
  cases hsplit : Text.splitLast? '.' name with
  | none => exact hname
  | some parts =>
      obtain ⟨front, back⟩ := parts
      dsimp only
      split_ifs
      · exact hname
      · rw [Text.eq_of_splitLast? hsplit] at hname
        exact fun hmem => hname (List.mem_append_left _ hmem)

theorem trimParts_concat (front : List Text) (hlast : ¬isIdlePart last) :
    trimParts (front ++ [last]) = front ++ [last] := by
  cases front with
  | nil => rfl
  | cons first rest =>
      rw [List.cons_append, trimParts, List.reverse_concat, List.dropWhile_cons_of_neg hlast,
        List.reverse_cons, List.reverse_reverse]

/-- A path whose last part counts is absolute if there are parts in front and the first is empty. -/
theorem EndsIn.isAbsolute_iff (h : path.EndsIn front last idle) (hlast : ¬isIdlePart last) :
    isAbsolute path ↔ front.head? = some [] := by
  have hne : last ≠ [] := by
    rintro rfl
    exact hlast rfl
  have hpath : path ≠ [] := by
    rintro rfl
    have hparts : [[]] = front ++ last :: idle := h.parts
    cases front with
    | nil => exact hne (List.cons.inj hparts).1.symm
    | cons first rest => simp at hparts
  rw [isAbsolute_iff_head hpath, h.parts]
  cases front with
  | nil => simp [hne]
  | cons first rest => rfl

/-- With another extension a path ends in a name of its own behind the same parts. -/
theorem EndsIn.withExtension (h : path.EndsIn front last idle) (hstem : stem? path = some stem)
    (hextension : '/' ∉ extension) (hne : extension ≠ []) :
    (path.withExtension extension).EndsIn front (stem ++ "." ++ extension) [] ∧
      isAbsolute (path.withExtension extension) = isAbsolute path := by
  have hpath : path.withExtension extension = ofParts (front ++ [stem ++ "." ++ extension]) := by
    rw [Path.withExtension, hstem]
    dsimp only
    rw [h.trimmed, List.dropLast_concat]
  obtain ⟨name, hname, rfl⟩ := Option.map_eq_some_iff.mp hstem
  obtain ⟨rfl, hcounts, -⟩ := h.fileName?_eq hname
  have hold : ∀ part ∈ front ++ last :: idle, '/' ∉ part := fun part hpart =>
    Text.not_mem_of_mem_splitOn (t := path) (h.parts ▸ hpart)
  have hslash : '/' ∉ (splitName last).1 ++ "." ++ extension := by
    have hlast := not_mem_stem (hold last (List.mem_append_right _ List.mem_cons_self))
    simp [hlast, hextension]
  have hnew : ¬isIdlePart ((splitName last).1 ++ "." ++ extension) := by
    obtain ⟨c, extension, rfl⟩ := List.exists_cons_of_ne_nil hne
    cases (splitName last).1 <;> simp [isIdlePart]
  generalize (splitName last).1 ++ "." ++ extension = new at hpath hslash hnew ⊢
  have hslashes : ∀ part ∈ front ++ [new], '/' ∉ part := by
    intro part hpart
    rcases List.mem_append.mp hpart with hpart | hpart
    · exact hold part (List.mem_append_left _ hpart)
    · rwa [List.mem_singleton.mp hpart]
  have hjoin : ofParts (front ++ [new]) = Text.joinWith "/" (front ++ [new]) := by
    unfold ofParts
    split
    · next hempty =>
        have hlast := congrArg List.getLast? hempty
        rw [List.getLast?_concat] at hlast
        exact absurd (by rw [Option.some.inj hlast]; rfl) hnew
    · rfl
  have hparts : Text.splitOn '/' (path.withExtension extension) = front ++ [new] := by
    rw [hpath, hjoin]
    exact Text.splitOn_joinWith (List.concat_ne_nil _ _) hslashes
  have hends : (path.withExtension extension).EndsIn front new [] :=
    ⟨by rw [hparts, trimParts_concat front hnew], hparts, List.forall_mem_nil _, fun _ => hnew⟩
  exact ⟨hends, by rw [Bool.eq_iff_iff, hends.isAbsolute_iff hnew, h.isAbsolute_iff hcounts]⟩

end Path

end SampleHarvest
