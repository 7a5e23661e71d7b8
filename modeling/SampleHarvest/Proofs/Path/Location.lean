import Mathlib.Logic.Relation
import SampleHarvest.Proofs.Path.Reference
import SampleHarvest.Proofs.Text.Trim

/-!
# The place that a reference names

A slash in a reference parts the names in front of it from those behind it, and a backslash does the
same. An empty name does not count. So the names stay the same when slashes are doubled or turned
round, and the target of a reference is made from its names alone.

The suffix of a dialect is put to one name at least if there is any. Every other name is kept, and
so is the order. So the targets of two dialects differ at such a name.
-/

namespace SampleHarvest

open Text

namespace Text

variable {c : Char}

theorem dropWhile_append_cons {α : Type} {p : α → Bool} {x : α} (hx : p x = false)
    (front back : List α) :
    (front ++ x :: back).dropWhile p = front.dropWhile p ++ x :: back := by
  have hback : (x :: back).dropWhile p = x :: back :=
    List.dropWhile_cons_of_neg (Bool.eq_false_iff.mp hx)
  rw [List.dropWhile_append, hback]
  split_ifs with hall
  · rw [List.isEmpty_iff.mp hall, List.nil_append]
  · rfl

/-- Trimming leaves what is in front of a character from what is behind it. -/
theorem trim_append_cons (hc : isBlank c = false) (front back : Text) :
    trim (front ++ c :: back) = trimStart front ++ c :: trimEnd back := by
  rw [trim, trimStart, dropWhile_append_cons hc, trimEnd, List.reverse_append, List.reverse_cons,
    List.append_assoc, List.singleton_append, dropWhile_append_cons hc]
  simp [trimStart, trimEnd]

theorem subset_of_mem_splitOn {separator : Char} {t part : Text} (h : part ∈ splitOn separator t) :
    part ⊆ t := by
  induction t generalizing part with
  | nil =>
      rw [List.mem_singleton.mp h]
      exact List.nil_subset _
  | cons d t ih =>
      rw [splitOn] at h
      split_ifs at h with hd
      · rcases List.mem_cons.mp h with rfl | h
        · exact List.nil_subset _
        · exact List.subset_cons_of_subset d (ih h)
      · obtain ⟨first, parts, hparts⟩ := List.exists_cons_of_ne_nil (splitOn_ne_nil separator t)
        rw [hparts] at h ih
        rcases List.mem_cons.mp h with rfl | h
        · exact List.cons_subset_cons d (ih List.mem_cons_self)
        · exact List.subset_cons_of_subset d (ih (List.mem_cons_of_mem _ h))

end Text

theorem Dialect.folderSuffix_injective :
    Function.Injective fun dialect : Dialect => dialect.rules.folderSuffix := by
  intro a b h
  cases a <;> cases b <;> first | rfl | exact absurd h (by decide)

namespace Target

/-- One reference is another one with a slash doubled, a slash turned round or blanks around it. -/
inductive Respells : Text → Text → Prop
  | doubled (front back : Text) : Respells (front ++ '/' :: back) (front ++ '/' :: '/' :: back)
  | turned (front back : Text) : Respells (front ++ '/' :: back) (front ++ '\\' :: back)
  | padded {before behind : Text} (reference : Text) (hbefore : IsBlanks before)
      (hbehind : IsBlanks behind) : Respells reference (before ++ reference ++ behind)

/-- The suffix is put to every name `examples`, or to the last name if there is none. Nothing else
is changed. -/
structure IsMarked (suffix : Text) (names marked : List Text) : Prop where
  length : marked.length = names.length
  each : ∀ i (h : i < names.length), marked[i]? = some
    (if names[i] = examplesName ∨ examplesName ∉ names ∧ i + 1 = names.length
      then names[i] ++ suffix else names[i])

def names (target : Target) : List Text :=
  if target.folder.isEmpty then [] else target.folder.splitOn '/'

variable {a b reference suffix other : Text} {names marked : List Text}

/-! ### Other spellings -/

/-- A slash for a backslash. -/
def straighten (c : Char) : Char := if c = '\\' then '/' else c

/-- A slash or a backslash parts a reference. -/
theorem normalize_append {c : Char} (hc : c = '/' ∨ c = '\\') (front back : Text) :
    normalize (front ++ c :: back) =
      (trimStart front).map straighten ++ '/' :: (trimEnd back).map straighten := by
  rcases hc with rfl | rfl <;>
  · rw [normalize, trim_append_cons (by decide), List.map_append]
    rfl

theorem ofReference_congr (hnames : folderNames a = folderNames b) (hfile : fileName a = fileName b)
    (suffix : Text) : ofReference a suffix = ofReference b suffix := by
  rw [ofReference_eq, ofReference_eq, hnames, hfile]

/-- The last part is the file name, and those in front of it that are not empty are the names. -/
theorem names_of_parts {front : List Text} {last : Text}
    (h : Text.splitOn '/' (normalize reference) = front ++ [last]) :
    folderNames reference = front.filter (fun name => !name.isEmpty) ∧
      fileName reference = last := by
  simp [folderNames, fileName, h]

theorem Respells.ofReference_eq (h : Respells a b) (suffix : Text) :
    ofReference a suffix = ofReference b suffix := by
  cases h with
  | doubled front back =>
      have honce := normalize_append (Or.inl rfl) front back
      have htwice := normalize_append (Or.inl rfl) front ('/' :: back)
      rw [trimEnd_cons (by decide), List.map_cons, straighten, if_neg (by decide)] at htwice
      generalize (trimStart front).map straighten = front' at honce htwice
      generalize (trimEnd back).map straighten = back' at honce htwice
      obtain ⟨init, last, hparts⟩ : ∃ init last, Text.splitOn '/' back' = init ++ [last] :=
        ⟨_, _, (List.dropLast_concat_getLast (splitOn_ne_nil _ _)).symm⟩
      -- The second slash adds an empty part, which is not among the names.
      have hslash : Text.splitOn '/' ('/' :: back') = [] :: (init ++ [last]) := by
        rw [Text.splitOn, if_pos rfl, hparts]
      have hleft : Text.splitOn '/' (normalize (front ++ '/' :: back)) =
          (Text.splitOn '/' front' ++ init) ++ [last] := by
        rw [honce, splitOn_append, hparts, List.append_assoc]
      have hright : Text.splitOn '/' (normalize (front ++ '/' :: '/' :: back)) =
          (Text.splitOn '/' front' ++ [] :: init) ++ [last] := by
        rw [htwice, splitOn_append, hslash, List.append_assoc, List.cons_append]
      obtain ⟨hnames, hfile⟩ := names_of_parts hleft
      obtain ⟨hnames', hfile'⟩ := names_of_parts hright
      refine ofReference_congr ?_ (hfile.trans hfile'.symm) suffix
      rw [hnames, hnames', List.filter_append, List.filter_append]
      rfl
  | turned front back =>
      have hsame := (normalize_append (Or.inl rfl) front back).trans
        (normalize_append (Or.inr rfl) front back).symm
      rw [ofReference, ofReference, hsame]
  | padded reference hbefore hbehind =>
      rw [ofReference, ofReference, normalize, normalize, trim_append_blanks hbehind,
        trim_blanks_append hbefore]

theorem ofReference_eq_of_respellings (h : Relation.EqvGen Respells a b) (suffix : Text) :
    ofReference a suffix = ofReference b suffix := by
  induction h with
  | rel a b h => exact h.ofReference_eq suffix
  | refl a => rfl
  | symm a b _ ih => exact ih.symm
  | trans a b c _ _ ih ih' => exact ih.trans ih'

/-! ### Marks -/

theorem suffixLast_isMarked (h : examplesName ∉ names) :
    IsMarked suffix names (suffixLast suffix names) := by
  have hexamples : ∀ i (h : i < names.length), names[i] ≠ examplesName := by
    rintro i hi hname
    exact h (hname ▸ List.getElem_mem hi)
  suffices hlast : (suffixLast suffix names).length = names.length ∧ ∀ i (h : i < names.length),
      (suffixLast suffix names)[i]? =
        some (if i + 1 = names.length then names[i] ++ suffix else names[i]) by
    refine ⟨hlast.1, fun i hi => (hlast.2 i hi).trans ?_⟩
    simp [hexamples, h]
  -- The last name is told by what is behind it, so the induction forgets about `examples`.
  clear h hexamples
  fun_induction suffixLast suffix names with
  | case1 => simp
  | case2 name => simp
  | case3 name names hne ih =>
      refine ⟨congrArg (· + 1) ih.1, fun i hi => ?_⟩
      cases i with
      | zero =>
          have hmore : names ≠ [] := by
            rintro rfl
            exact hne rfl
          simp [hmore]
      | succ i => simpa using ih.2 i (by simpa using hi)

theorem suffixFolder_isMarked (suffix : Text) (names : List Text) :
    IsMarked suffix names (suffixFolder suffix names) := by
  unfold suffixFolder
  split_ifs with hexamples
  · have hmem : examplesName ∈ names := List.contains_iff_mem.mp hexamples
    refine ⟨List.length_map _, fun i hi => ?_⟩
    rw [List.getElem?_map, List.getElem?_eq_getElem hi]
    simp [hmem]
  · exact suffixLast_isMarked fun hmem => hexamples (List.contains_iff_mem.mpr hmem)

theorem IsMarked.suffix_eq (h : IsMarked suffix names marked) (hother : IsMarked other names marked)
    (hne : names ≠ []) : suffix = other := by
  obtain ⟨i, hi, hmark⟩ : ∃ i, ∃ h : i < names.length,
      names[i] = examplesName ∨ examplesName ∉ names ∧ i + 1 = names.length := by
    by_cases hexamples : examplesName ∈ names
    · obtain ⟨i, hi, hname⟩ := List.mem_iff_getElem.mp hexamples
      exact ⟨i, hi, Or.inl hname⟩
    · have hpos := List.length_pos_iff.mpr hne
      exact ⟨names.length - 1, by omega, Or.inr ⟨hexamples, by omega⟩⟩
  have hsame := (h.each i hi).symm.trans (hother.each i hi)
  rw [if_pos hmark, if_pos hmark] at hsame
  exact List.append_cancel_left (Option.some.inj hsame)

/-! ### Targets of references -/

/-- The stem is a part of the file name, so it has none of the characters that part names. -/
theorem stem_ofReference (reference suffix : Text) :
    ∃ rest, fileName reference = (ofReference reference suffix).stem ++ rest ∧
      (rest = [] ∨ ∃ extension, rest = '.' :: extension) ∧
      ∀ c ∈ (ofReference reference suffix).stem, c ≠ '.' ∧ c ≠ '/' ∧ c ≠ '\\' := by
  rw [ofReference_eq]
  refine ⟨_, List.takeWhile_append_dropWhile.symm, ?_, fun c hc => ⟨?_, ?_, ?_⟩⟩
  · have hfirst := List.head?_dropWhile_not (fun c => c ≠ '.') (fileName reference)
    cases hrest : (fileName reference).dropWhile fun c => c ≠ '.' with
    | nil => exact Or.inl rfl
    | cons c extension =>
        rw [hrest] at hfirst
        exact Or.inr ⟨extension, by simpa using hfirst⟩
  · change c ∈ (fileName reference).takeWhile _ at hc
    have hdot := List.mem_takeWhile_imp hc
    exact of_decide_eq_true hdot
  · rintro rfl
    exact slash_not_mem_fileName reference ((List.takeWhile_sublist _).subset hc)
  · rintro rfl
    have hnormal : '\\' ∈ normalize reference :=
      subset_of_mem_splitOn (List.getLast_mem _) ((List.takeWhile_sublist _).subset hc)
    obtain ⟨d, -, hd⟩ := List.mem_map.mp hnormal
    split_ifs at hd with hbackslash
    · exact absurd hd (by decide)
    · exact hbackslash hd

theorem names_ofReference (hsuffix : '/' ∉ suffix) :
    (ofReference reference suffix).names = suffixFolder suffix (folderNames reference) := by
  have hparts : ∀ part ∈ suffixFolder suffix (folderNames reference), part ≠ [] ∧ '/' ∉ part :=
    mem_suffixFolder_folderNames hsuffix
  rw [ofReference_eq, names]
  generalize suffixFolder suffix (folderNames reference) = parts at hparts ⊢
  cases parts with
  | nil => rfl
  | cons part parts =>
      have hne := Text.joinWith_ne_nil (hparts part List.mem_cons_self).1 parts
      rw [if_neg (by simpa using hne)]
      exact splitOn_joinWith (List.cons_ne_nil _ _) fun other hother => (hparts other hother).2

/-- **Targets.** The stem of a target is the file name of the reference up to its first dot, and has
no dot, no slash and no backslash. The folder has the names of the reference in their order, and the
suffix of the dialect is put to each `examples`, or to the last name if there is none.

The target stays the same when slashes of the reference are doubled or turned round, or when blanks
are put around it, however often. If there is a folder, each dialect has a path of its own. -/
theorem ofReference_keeps_location (dialect : Dialect) (reference : Text) :
    let target := ofReference reference dialect.rules.folderSuffix
    (∃ rest, fileName reference = target.stem ++ rest ∧
      (rest = [] ∨ ∃ extension, rest = '.' :: extension)) ∧
    (∀ c ∈ target.stem, c ≠ '.' ∧ c ≠ '/' ∧ c ≠ '\\') ∧
    IsMarked dialect.rules.folderSuffix (folderNames reference) target.names ∧
    (∀ spelling, Relation.EqvGen Respells reference spelling →
      ofReference spelling dialect.rules.folderSuffix = target) ∧
    ∀ other : Dialect, other ≠ dialect → folderNames reference ≠ [] →
      (ofReference reference other.rules.folderSuffix).documentPath ≠ target.documentPath := by
  intro target
  obtain ⟨rest, hstem, hrest, hfree⟩ := stem_ofReference reference dialect.rules.folderSuffix
  refine ⟨⟨rest, hstem, hrest⟩, hfree, ?_, fun spelling h => ?_, fun other hne hnames hpath => ?_⟩
  · rw [names_ofReference dialect.slash_not_mem_folderSuffix]
    exact suffixFolder_isMarked _ _
  · exact (ofReference_eq_of_respellings h _).symm
  · have hparts := congrArg (Text.splitOn '/') hpath
    rw [splitOn_ofReference other.slash_not_mem_folderSuffix,
      splitOn_ofReference dialect.slash_not_mem_folderSuffix] at hparts
    obtain ⟨hmarked, -⟩ := List.append_inj' hparts rfl
    have hsame := (suffixFolder_isMarked other.rules.folderSuffix (folderNames reference)).suffix_eq
      (hmarked ▸ suffixFolder_isMarked dialect.rules.folderSuffix (folderNames reference)) hnames
    exact hne (Dialect.folderSuffix_injective hsame)

/-- Slashes of both kinds part the names, and each `examples` gets the suffix. -/
example : ofReference " specs\\examples//examples/v1/Get.v1.json" "-go" =
    ⟨"specs/examples-go/examples-go/v1", "Get"⟩ := by
  decide

end Target

end SampleHarvest
