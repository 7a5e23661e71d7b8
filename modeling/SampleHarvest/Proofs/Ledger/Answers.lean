import Mathlib.Tactic.ByContra
import SampleHarvest.Proofs.Ledger.Catalog

/-!
# The answers of a ledger

Every answer of a ledger is one that its catalog allows, and the catalog afterwards is the one of
the new rows. Since a catalog allows one answer only, the rows cannot be told from the map. The rows
of lists are sorted by columns, and the files of a release by their paths.
-/

namespace SampleHarvest

namespace Ledger

variable {ledger : Ledger}

/-! ### The first clash -/

/-- Leaving out repeated texts does not change which one is the first to have a property. -/
theorem findSome?_distinct {α : Type} (f : Text → Option α) (texts : List Text) :
    (Text.distinct texts).findSome? f = texts.findSome? f := by
  suffices h : ∀ seen,
      (texts.foldl (fun seen t => if t ∈ seen then seen else seen ++ [t]) seen).findSome? f =
        (seen ++ texts).findSome? f from h []
  induction texts with
  | nil => simp
  | cons t texts ih =>
      intro seen
      rw [List.foldl_cons, ih]
      split_ifs with ht
      · rw [List.findSome?_append, List.findSome?_append, List.findSome?_cons]
        cases hseen : seen.findSome? f with
        | some found => rfl
        | none => rw [List.findSome?_eq_none_iff.mp hseen t ht]
      · rw [List.append_assoc, List.singleton_append]

/-- The paths of another key are the ones that have an owner when the key is gone. -/
theorem IsSound.owner?_remove (h : ledger.IsSound) (key : ReleaseKey) {path : Path}
    {row : ReleaseRow} (hrow : (ledger.remove key.name key.language).2.owner? path = some row) :
    row.key ≠ key ∧ ledger.catalog.Owns row.key path := by
  have howns := (h.remove key.name key.language).owns_iff.mpr ⟨row, hrow, rfl⟩
  rw [h.catalog_remove] at howns
  exact Catalog.owns_unbind.mp howns

theorem IsSound.isFreeFor_iff (h : ledger.IsSound) (key : ReleaseKey) {path : Path} :
    ledger.catalog.IsFreeFor key path ↔
      (ledger.remove key.name key.language).2.owner? path = none := by
  constructor
  · intro hfree
    refine Option.eq_none_iff_forall_ne_some.mpr fun row hrow => ?_
    obtain ⟨hne, howns⟩ := h.owner?_remove key hrow
    exact hne (hfree _ howns)
  · intro hnone other hother
    by_contra hne
    have howns := Catalog.owns_unbind.mpr ⟨hne, hother⟩
    rw [← h.catalog_remove, (h.remove _ _).owns_iff] at howns
    obtain ⟨row, hrow, -⟩ := howns
    rw [hnone] at hrow
    cases hrow

theorem IsSound.firstClash (h : ledger.IsSound) {recording : Recording} {clash : Clash}
    (hclash : (ledger.remove recording.name recording.language).2.clash?
      (Text.distinct recording.files) = some clash) :
    ledger.catalog.FirstClash recording.key recording.files clash := by
  rw [clash?, findSome?_distinct, List.findSome?_eq_some_iff] at hclash
  obtain ⟨front, path, back, hfiles, hsome, hfront⟩ := hclash
  obtain ⟨row, hrow, rfl⟩ := Option.map_eq_some_iff.mp hsome
  obtain ⟨hne, howns⟩ := h.owner?_remove recording.key hrow
  refine ⟨⟨front, back, hfiles, fun path hpath => ?_⟩, howns, hne⟩
  exact (h.isFreeFor_iff recording.key).mpr (Option.map_eq_none_iff.mp (hfront path hpath))

/-! ### Recording -/

/-- A recording that is not a refused duplicate clashes or binds its key. -/
theorem IsSound.insertFresh_remove (h : ledger.IsSound) (recording : Recording)
    (outcome : Outcome) :
    (∃ clash, ledger.catalog.FirstClash recording.key recording.files clash ∧
      (ledger.remove recording.name recording.language).2.insertFresh recording outcome =
        .error clash) ∨
    ((∀ path ∈ recording.files, ledger.catalog.IsFreeFor recording.key path) ∧
      ∃ next, next.IsSound ∧ next.catalog = ledger.catalog.bind recording.key recording.entry ∧
        (ledger.remove recording.name recording.language).2.insertFresh recording outcome =
          .ok (outcome, next)) := by
  have hremove := h.remove recording.name recording.language
  have hkey : ∀ row ∈ (ledger.remove recording.name recording.language).2.releases,
      row.key ≠ ⟨recording.name, recording.language⟩ := fun _ => h.key_ne_of_mem_remove
  cases hclash : (ledger.remove recording.name recording.language).2.clash?
      (Text.distinct recording.files) with
  | some clash =>
      exact Or.inl ⟨clash, h.firstClash hclash, by rw [Ledger.insertFresh, hclash]⟩
  | none =>
      refine Or.inr ⟨fun path hpath => ?_, _, hremove.insert hkey hclash, ?_, by
        rw [Ledger.insertFresh, hclash]⟩
      · exact (h.isFreeFor_iff recording.key).mpr
          (clash?_eq_none_iff.mp hclash path (Text.mem_distinct.mpr hpath))
      · rw [hremove.catalog_insert hkey hclash, h.catalog_remove]
        exact Function.update_idem _ _ _

/-- A recording does what the catalog allows. -/
theorem IsSound.step_record (h : ledger.IsSound) (recording : Recording) (policy : Policy) :
    ledger.catalog.Step (.record recording policy) (ledger.answer (.record recording policy)).1
      (ledger.answer (.record recording policy)).2.catalog ∧
    (ledger.answer (.record recording policy)).2.IsSound := by
  have hbound := ledger.catalog_isSome recording.key
  rw [answer, record_eq]
  by_cases hthere : ledger.isRecorded recording.name recording.language
  · have hsome : ledger.catalog recording.key ≠ none := by
      rw [← Option.isSome_iff_ne_none, hbound]
      exact hthere
    cases policy with
    | reject =>
        rw [if_pos ⟨hthere, rfl⟩]
        exact ⟨.duplicate hsome, h⟩
    | replace =>
        rw [if_neg (fun hreject => nomatch hreject.2), if_pos hthere]
        obtain ⟨clash, hclash, herror⟩ | ⟨hfree, next, hnext, hcatalog, hok⟩ :=
          h.insertFresh_remove recording .replaced
        · rw [herror]
          exact ⟨.refused (Or.inr rfl) hclash, h⟩
        · rw [hok, hcatalog]
          exact ⟨.replaced hsome hfree, hnext⟩
  · have hnone : ledger.catalog recording.key = none := by
      rw [← Option.not_isSome_iff_eq_none, hbound]
      exact hthere
    rw [if_neg (fun hreject => hthere hreject.1), if_neg hthere]
    obtain ⟨clash, hclash, herror⟩ | ⟨hfree, next, hnext, hcatalog, hok⟩ :=
      h.insertFresh_remove recording .written
    · rw [herror]
      exact ⟨.refused (Or.inl hnone) hclash, h⟩
    · rw [hok, hcatalog]
      exact ⟨.written hnone hfree, hnext⟩

/-! ### Files and lists in order -/

/-- Different texts in ascending order are in the order of their bytes. -/
theorem pairwise_isBefore_sort {texts : List Text} (h : texts.Nodup) :
    (Text.sort texts).Pairwise fun a b => (Utf8.encode a).IsBefore (Utf8.encode b) := by
  have hnodup : (Text.sort texts).Pairwise (· ≠ ·) := (Text.sort_perm texts).nodup_iff.mpr h
  exact ((Text.pairwise_sort texts).and hnodup).imp fun ⟨hle, hne⟩ => Utf8.encode_isBefore hle hne

theorem IsSound.step_filesOf (h : ledger.IsSound) (key : ReleaseKey) :
    ledger.catalog.Step (.filesOf key) (.files (ledger.filesOf key.name key.language))
      ledger.catalog := by
  rw [filesOf]
  cases hfind : ledger.find? key.name key.language with
  | none =>
      have hnone : ledger.catalog key = none := by rw [catalog, hfind, Option.map_none]
      exact .filesOf List.Pairwise.nil fun path => by simp [Catalog.Owns, hnone]
  | some row =>
      have hsome : ledger.catalog key = some (ledger.entryOf row) := by
        rw [catalog, hfind, Option.map_some]
      refine .filesOf (pairwise_isBefore_sort ?_) fun path => ?_
      · exact h.paths.sublist (List.filter_sublist.map _)
      · simp only [Catalog.Owns, hsome, Option.some.injEq, exists_eq_left', entryOf,
          List.mem_toFinset]
        exact (Text.sort_perm _).mem_iff

/-- How two rows compare if these texts do not decide. -/
def ordered (a b : Text) (rest : Bool) : Bool := if a ≠ b then Text.le a b else rest

theorem comesBefore_eq (a b : ReleaseRow) :
    comesBefore a b = ordered a.language b.language (ordered a.package b.package
      (ordered a.version b.version (Text.le a.name b.name))) := rfl

theorem ordered_iff {a b : Text} {rest : Bool} :
    ordered a b rest ↔ Text.le a b ∧ (a = b → rest) := by
  rw [ordered]
  by_cases hab : a = b
  · subst hab
    simp [Text.le_refl]
  · simp [hab]

theorem ordered_trans {a b c : Text} {ab bc ac : Bool} (hrest : ab → bc → ac)
    (hab : ordered a b ab) (hbc : ordered b c bc) : ordered a c ac := by
  rw [ordered_iff] at hab hbc ⊢
  obtain ⟨hleab, hab⟩ := hab
  obtain ⟨hlebc, hbc⟩ := hbc
  refine ⟨Text.le_trans hleab hlebc, fun hac => ?_⟩
  subst hac
  have heq := Text.le_antisymm hleab hlebc
  exact hrest (hab heq) (hbc heq.symm)

theorem ordered_total {a b : Text} {ab ba : Bool} (hrest : ab ∨ ba) :
    ordered a b ab ∨ ordered b a ba := by
  rw [ordered_iff, ordered_iff]
  by_cases hab : a = b
  · subst hab
    exact hrest.imp (fun h => ⟨Text.le_refl a, fun _ => h⟩) fun h => ⟨Text.le_refl a, fun _ => h⟩
  · exact (Text.le_total a b).imp (fun h => ⟨h, fun heq => absurd heq hab⟩)
      fun h => ⟨h, fun heq => absurd heq.symm hab⟩

theorem comesBefore_trans {a b c : ReleaseRow} (hab : comesBefore a b) (hbc : comesBefore b c) :
    comesBefore a c := by
  rw [comesBefore_eq] at hab hbc ⊢
  exact ordered_trans (ordered_trans (ordered_trans Text.le_trans)) hab hbc

theorem comesBefore_total (a b : ReleaseRow) : comesBefore a b ∨ comesBefore b a := by
  rw [comesBefore_eq, comesBefore_eq]
  exact ordered_total (ordered_total (ordered_total (Text.le_total a.name b.name)))

/-- A column decides, or leaves the decision to the columns behind it. -/
theorem lex_of_ordered {a b : Text} {rest : Bool} {as bs : List Bytes}
    (hrest : a = b → rest → List.Lex Bytes.IsBefore as bs) (h : ordered a b rest) :
    List.Lex Bytes.IsBefore (Utf8.encode a :: as) (Utf8.encode b :: bs) := by
  obtain ⟨hle, htail⟩ := ordered_iff.mp h
  by_cases hab : a = b
  · subst hab
    exact List.Lex.cons (hrest rfl (htail rfl))
  · exact List.Lex.rel (Utf8.encode_isBefore hle hab)

/-- Rows of different keys are in the order of the bytes of their columns. -/
theorem isBefore_of_comesBefore {a b : ReleaseRow} (hkey : a.key ≠ b.key) (h : comesBefore a b) :
    a.listed.IsBefore b.listed := by
  rw [comesBefore_eq] at h
  refine lex_of_ordered (fun hlanguage h => ?_) h
  refine lex_of_ordered (fun _ h => ?_) h
  refine lex_of_ordered (fun _ h => ?_) h
  refine List.Lex.rel (Utf8.encode_isBefore h fun hname => hkey ?_)
  exact congrArg₂ ReleaseKey.mk hname hlanguage

theorem passes_iff {filter? : Option Text} {language : Text} :
    passes filter? language ↔ ∀ wanted ∈ filter?, language = wanted := by
  cases filter? with
  | none => simp [passes]
  | some wanted => simpa [passes] using eq_comm

theorem IsSound.step_list (h : ledger.IsSound) (filter? : Option Text) :
    ledger.catalog.Step (.list filter?)
      (.releases ((ledger.list filter?).map ReleaseRow.listed)) ledger.catalog := by
  have hperm : (ledger.list filter?).Perm
      (ledger.releases.filter fun row => passes filter? row.language) :=
    List.mergeSort_perm _ _
  have hkeys : (ledger.list filter?).Pairwise fun a b => a.key ≠ b.key := by
    have hnodup := h.keys.sublist ((List.filter_sublist (p := fun row =>
      passes filter? row.language)).map ReleaseRow.key)
    exact List.pairwise_map.mp ((hperm.map ReleaseRow.key).nodup_iff.mpr hnodup)
  have hsorted : (ledger.list filter?).Pairwise fun a b => comesBefore a b :=
    @List.pairwise_mergeSort _ comesBefore (fun _ _ _ => comesBefore_trans)
      (fun a b => (Bool.or_eq_true _ _).mpr (comesBefore_total a b)) _
  refine .list (List.pairwise_map.mpr ((hsorted.and hkeys).imp ?_)) fun listed => ?_
  · rintro a b ⟨hle, hkey⟩
    exact isBefore_of_comesBefore hkey hle
  · simp only [List.mem_map, hperm.mem_iff, List.mem_filter, passes_iff, h.catalog_eq_some_iff]
    constructor
    · rintro ⟨row, ⟨hrow, hpass⟩, rfl⟩
      exact ⟨row.key, _, ⟨row, hrow, rfl, rfl⟩, rfl, hpass⟩
    · rintro ⟨key, entry, ⟨row, hrow, rfl, rfl⟩, rfl, hpass⟩
      exact ⟨row, ⟨hrow, hpass⟩, rfl⟩

/-! ### Every call -/

/-- The answer of a sound ledger is one that its catalog allows. -/
theorem IsSound.step (h : ledger.IsSound) (call : LedgerCall) :
    ledger.catalog.Step call (ledger.answer call).1 (ledger.answer call).2.catalog ∧
      (ledger.answer call).2.IsSound := by
  cases call with
  | init => exact ⟨.init, h⟩
  | record recording policy => exact h.step_record recording policy
  | remove key =>
      rw [answer, remove_eq, ← catalog_isSome, h.catalog_remove]
      exact ⟨.remove key, h.remove _ _⟩
  | isRecorded key =>
      rw [answer, ← catalog_isSome]
      exact ⟨.isRecorded key, h⟩
  | filesOf key => exact ⟨h.step_filesOf key, h⟩
  | list filter? => exact ⟨h.step_list filter?, h⟩

theorem IsSound.run (h : ledger.IsSound) (calls : List LedgerCall) :
    ledger.catalog.Run calls (ledger.answers calls).1 (ledger.answers calls).2.catalog ∧
      (ledger.answers calls).2.IsSound := by
  induction calls generalizing ledger with
  | nil => exact ⟨.nil, h⟩
  | cons call calls ih =>
      obtain ⟨hstep, hsound⟩ := h.step call
      obtain ⟨hrun, hlast⟩ := ih hsound
      exact ⟨.cons hstep hrun, hlast⟩

end Ledger

namespace Catalog

variable {catalog : Catalog}

instance : Std.Asymm fun x y : UInt8 => x.toNat < y.toNat := ⟨fun _ _ => Nat.lt_asymm⟩

instance : Std.Asymm Bytes.IsBefore := inferInstanceAs (Std.Asymm (List.Lex _))

instance : Std.Asymm ListedRelease.IsBefore :=
  ⟨fun a b => Std.Asymm.asymm (r := List.Lex Bytes.IsBefore) a.columns b.columns⟩

instance : Std.Asymm fun a b : Path => (Utf8.encode a).IsBefore (Utf8.encode b) :=
  ⟨fun a b => Std.Asymm.asymm (r := Bytes.IsBefore) (Utf8.encode a) (Utf8.encode b)⟩

theorem FirstClash.unique (hdisjoint : catalog.IsDisjoint) {key : ReleaseKey} {paths : List Path}
    {a b : Clash} (ha : catalog.FirstClash key paths a) (hb : catalog.FirstClash key paths b) :
    a = b := by
  classical
  have hfind : ∀ clash, catalog.FirstClash key paths clash →
      paths.find? (fun path => ¬catalog.IsFreeFor key path) = some clash.path := by
    rintro clash ⟨⟨front, back, hpaths, hfront⟩, howns, hne⟩
    refine List.find?_eq_some_iff_append.mpr ⟨?_, front, back, hpaths, fun path hpath => ?_⟩
    · exact decide_eq_true fun hfree => hne (hfree _ howns)
    · simp [hfront path hpath]
  have hpath : a.path = b.path := Option.some.inj ((hfind a ha).symm.trans (hfind b hb))
  have hkey := hdisjoint _ _ _ ha.2.1 (hpath ▸ hb.2.1)
  obtain ⟨hname, hlanguage⟩ := ReleaseKey.mk.inj hkey
  cases a
  cases b
  simp_all

theorem FirstClash.not_free {key : ReleaseKey} {paths : List Path} {clash : Clash}
    (h : catalog.FirstClash key paths clash) : ¬∀ path ∈ paths, catalog.IsFreeFor key path := by
  obtain ⟨⟨front, back, rfl, -⟩, howns, hne⟩ := h
  intro hfree
  exact hne (hfree _ (List.mem_append_right _ List.mem_cons_self) _ howns)

/-- A catalog in which no path belongs to two keys has one answer to a call. -/
theorem Step.unique (hdisjoint : catalog.IsDisjoint) {call : LedgerCall} {a b : LedgerAnswer}
    {next next' : Catalog} (ha : catalog.Step call a next) (hb : catalog.Step call b next') :
    a = b ∧ next = next' := by
  cases ha with
  | init => cases hb; exact ⟨rfl, rfl⟩
  | duplicate hbound =>
      cases hb with
      | duplicate => exact ⟨rfl, rfl⟩
      | refused hopen => exact absurd hopen (by simp [hbound])
      | written hfresh => exact absurd hfresh hbound
  | refused hopen hclash =>
      cases hb with
      | duplicate hbound => exact absurd hopen (by simp [hbound])
      | refused _ hclash' => exact ⟨by rw [hclash.unique hdisjoint hclash'], rfl⟩
      | written _ hfree => exact absurd hfree hclash.not_free
      | replaced _ hfree => exact absurd hfree hclash.not_free
  | written hfresh hfree =>
      cases hb with
      | duplicate hbound => exact absurd hfresh hbound
      | refused _ hclash => exact absurd hfree hclash.not_free
      | written => exact ⟨rfl, rfl⟩
      | replaced hbound => exact absurd hfresh hbound
  | replaced hbound hfree =>
      cases hb with
      | refused _ hclash => exact absurd hfree hclash.not_free
      | written hfresh => exact absurd hfresh hbound
      | replaced => exact ⟨rfl, rfl⟩
  | remove key => cases hb; exact ⟨rfl, rfl⟩
  | isRecorded key => cases hb; exact ⟨rfl, rfl⟩
  | filesOf horder hpaths =>
      cases hb with
      | filesOf horder' hpaths' =>
          rw [horder.eq_of_mem_iff horder' fun path => (hpaths path).trans (hpaths' path).symm]
          exact ⟨rfl, rfl⟩
  | list horder hrows =>
      cases hb with
      | list horder' hrows' =>
          rw [horder.eq_of_mem_iff horder' fun row => (hrows row).trans (hrows' row).symm]
          exact ⟨rfl, rfl⟩

end Catalog

namespace Ledger

variable {ledger : Ledger}

theorem IsSound.run_unique (h : ledger.IsSound) {calls : List LedgerCall}
    {answers : List LedgerAnswer} {catalog : Catalog}
    (hrun : ledger.catalog.Run calls answers catalog) :
    answers = (ledger.answers calls).1 ∧ catalog = (ledger.answers calls).2.catalog := by
  induction calls generalizing ledger answers with
  | nil => cases hrun; exact ⟨rfl, rfl⟩
  | cons call calls ih =>
      cases hrun with
      | cons hstep hrest =>
          obtain ⟨hstep', hsound⟩ := h.step call
          obtain ⟨rfl, rfl⟩ := hstep.unique h.catalog_disjoint hstep'
          obtain ⟨rfl, rfl⟩ := ih hsound hrest
          exact ⟨rfl, rfl⟩

/-- **Ledger refinement.** Whatever is asked of a ledger that begins empty, its answers are the ones
that the rules of catalogs allow, and no others; in the end it stands for the catalog that the rules
lead to, in which no path belongs to two keys. -/
theorem answers_refine_catalog (calls : List LedgerCall) :
    (∀ answers catalog, Catalog.empty.Run calls answers catalog ↔
      answers = (empty.answers calls).1 ∧ catalog = (empty.answers calls).2.catalog) ∧
    (empty.answers calls).2.catalog.IsDisjoint := by
  obtain ⟨hrun, hsound⟩ := empty_sound.run calls
  refine ⟨fun answers catalog => ⟨empty_sound.run_unique, ?_⟩, hsound.catalog_disjoint⟩
  rintro ⟨rfl, rfl⟩
  exact hrun

end Ledger

end SampleHarvest
