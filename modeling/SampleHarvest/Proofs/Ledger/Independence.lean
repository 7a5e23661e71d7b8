import SampleHarvest.Proofs.Ledger.Traces

/-!
# Recordings that do not meet

What is answered to a recording depends on its key and on who owns its paths. A recording for another
key that shares no path with it, and wants none that its key owns, changes neither of them. So two
such recordings are answered alike in both orders, and they lead to one catalog. Only the numbers of
the rows tell which one came first.
-/

namespace SampleHarvest

namespace Catalog

variable {catalog next first second : Catalog} {recording a b : Recording} {policy : Policy}
  {answer : LedgerAnswer}

/-- A recording finds in both catalogs the same entry for its key and the same owners of its paths. -/
def LooksAlikeTo (recording : Recording) (catalog next : Catalog) : Prop :=
  next recording.key = catalog recording.key ∧
    ∀ path ∈ recording.files, ∀ key, next.Owns key path ↔ catalog.Owns key path

def afterAnswer (catalog : Catalog) (recording : Recording) : LedgerAnswer → Catalog
  | .recorded .duplicate | .refused _ => catalog
  | _ => catalog.bind recording.key recording.entry

theorem Step.record_eq (h : catalog.Step (.record recording policy) answer next) :
    next = catalog.afterAnswer recording answer := by
  cases h <;> rfl

/-- With some answers a recording leaves every catalog as it is, with all others it binds its key. -/
theorem afterAnswer_cases (recording : Recording) (answer : LedgerAnswer) :
    (∀ catalog : Catalog, catalog.afterAnswer recording answer = catalog) ∨
      ∀ catalog : Catalog,
        catalog.afterAnswer recording answer = catalog.bind recording.key recording.entry := by
  unfold afterAnswer
  split
  · exact Or.inl fun _ => rfl
  · exact Or.inl fun _ => rfl
  · exact Or.inr fun _ => rfl

namespace LooksAlikeTo

theorem isFreeFor_iff (h : LooksAlikeTo recording catalog next) {path : Path}
    (hpath : path ∈ recording.files) (key : ReleaseKey) :
    next.IsFreeFor key path ↔ catalog.IsFreeFor key path :=
  forall_congr' fun other => imp_congr_left (h.2 path hpath other)

theorem firstClash (h : LooksAlikeTo recording catalog next) {key : ReleaseKey} {clash : Clash}
    (hclash : catalog.FirstClash key recording.files clash) :
    next.FirstClash key recording.files clash := by
  obtain ⟨⟨front, back, hfiles, hfront⟩, howns, hne⟩ := hclash
  have hmem : ∀ path ∈ front ++ clash.path :: back, path ∈ recording.files := by
    rw [← hfiles]
    exact fun _ => id
  refine ⟨⟨front, back, hfiles, fun path hpath => ?_⟩, ?_, hne⟩
  · exact (h.isFreeFor_iff (hmem path (List.mem_append_left _ hpath)) key).mpr (hfront path hpath)
  · exact (h.2 _ (hmem _ (List.mem_append_right _ List.mem_cons_self)) _).mpr howns

theorem step (h : LooksAlikeTo recording catalog next) {last : Catalog}
    (hstep : catalog.Step (.record recording policy) answer last) :
    next.Step (.record recording policy) answer (next.afterAnswer recording answer) := by
  cases hstep with
  | duplicate hbound => exact .duplicate (h.1 ▸ hbound)
  | refused hopen hclash => exact .refused (h.1 ▸ hopen) (h.firstClash hclash)
  | written hfresh hfree =>
      exact .written (h.1 ▸ hfresh) fun path hpath =>
        (h.isFreeFor_iff hpath recording.key).mpr (hfree path hpath)
  | replaced hbound hfree =>
      exact .replaced (h.1 ▸ hbound) fun path hpath =>
        (h.isFreeFor_iff hpath recording.key).mpr (hfree path hpath)

end LooksAlikeTo

/-- Two recordings are for different keys, have no path in common, and none wants a path that the key
of the other one owns. -/
structure AreIndependent (catalog : Catalog) (a b : Recording) : Prop where
  keys : a.key ≠ b.key
  paths : ∀ path ∈ a.files, path ∉ b.files
  notOwned : ∀ path ∈ a.files, ¬catalog.Owns b.key path
  notOwned' : ∀ path ∈ b.files, ¬catalog.Owns a.key path

namespace AreIndependent

theorem symm (h : catalog.AreIndependent a b) : catalog.AreIndependent b a where
  keys := h.keys.symm
  paths path hb ha := h.paths path ha hb
  notOwned := h.notOwned'
  notOwned' := h.notOwned

/-- After one of the recordings the catalog looks to the other one as before. -/
theorem looksAlikeTo (h : catalog.AreIndependent a b) (answer : LedgerAnswer) :
    LooksAlikeTo a catalog (catalog.afterAnswer b answer) := by
  rcases afterAnswer_cases b answer with heq | heq
  · rw [heq]
    exact ⟨rfl, fun _ _ _ => Iff.rfl⟩
  · rw [heq]
    refine ⟨Function.update_of_ne h.keys _ _, fun path hpath key => ?_⟩
    rw [owns_bind]
    split_ifs with hkey
    · -- The path belongs to the other key neither before nor after.
      subst hkey
      have hnew : path ∉ b.entry.paths := fun hmem => h.paths path hpath (List.mem_toFinset.mp hmem)
      exact iff_of_false hnew (h.notOwned path hpath)
    · exact Iff.rfl

/-- Both orders lead to one catalog. -/
theorem afterAnswer_comm (h : catalog.AreIndependent a b) (x y : LedgerAnswer) :
    (catalog.afterAnswer a x).afterAnswer b y = (catalog.afterAnswer b y).afterAnswer a x := by
  rcases afterAnswer_cases a x with ha | ha
  · rw [ha, ha]
  rcases afterAnswer_cases b y with hb | hb
  · rw [hb, hb]
  · rw [ha, hb, hb, ha]
    exact Function.update_comm h.keys _ _ _

end AreIndependent

end Catalog

namespace Ledger

variable {ledger other : Ledger} {a b : Recording}

/-- Ledgers that stand for one catalog answer all calls alike, to any number of them. -/
theorem IsSound.answers_eq (h : ledger.IsSound) (hother : other.IsSound)
    (hcatalog : ledger.catalog = other.catalog) (calls : List LedgerCall) :
    (ledger.answers calls).1 = (other.answers calls).1 := by
  have hrun := (h.run calls).1
  rw [hcatalog] at hrun
  exact (hother.run_unique hrun).1

theorem IsSound.not_owns_of_not_mem_filesOf (h : ledger.IsSound) {key : ReleaseKey} {path : Path}
    (hpath : path ∉ ledger.filesOf key.name key.language) : ¬ledger.catalog.Owns key path := by
  cases h.step_filesOf key with
  | filesOf _ hpaths => exact fun howns => hpath ((hpaths path).mpr howns)

/-- The answer to a recording and the catalog after it, when an independent one was made before. -/
theorem IsSound.answer_independent (h : ledger.IsSound)
    (hindependent : ledger.catalog.AreIndependent a b) (pa pb : Policy) :
    let first := ledger.answer (.record a pa)
    (first.2.answer (.record b pb)).1 = (ledger.answer (.record b pb)).1 ∧
      (first.2.answer (.record b pb)).2.catalog =
        (ledger.catalog.afterAnswer a first.1).afterAnswer b (ledger.answer (.record b pb)).1 := by
  intro first
  obtain ⟨hstep, hsound⟩ := h.step_record a pa
  have halike := hindependent.symm.looksAlikeTo first.1
  rw [← hstep.record_eq] at halike
  have hboth := halike.step (h.step_record b pb).1
  obtain ⟨hanswer, hcatalog⟩ := (hsound.step_record b pb).1.unique hsound.catalog_disjoint hboth
  exact ⟨hanswer, by rw [hcatalog, hstep.record_eq]⟩

/-- **Independent recordings.** In every ledger that calls lead to, take two recordings for different
keys, with no path in common, of which none wants a path that the key of the other one owns. Each of
them is given one answer, the outcome or the clash, in whichever order they are made. The two ledgers
that they lead to tell of the same releases and files, and answer all later calls alike. -/
theorem independent_recordings_commute (calls : List LedgerCall) {a b : Recording} (pa pb : Policy)
    (hkeys : a.key ≠ b.key) (hpaths : ∀ path ∈ a.files, path ∉ b.files)
    (ha : ∀ path ∈ a.files, path ∉ (after calls).filesOf b.name b.language)
    (hb : ∀ path ∈ b.files, path ∉ (after calls).filesOf a.name a.language) :
    ∃ x y first second,
      (after calls).answers [.record a pa, .record b pb] = ([x, y], first) ∧
      (after calls).answers [.record b pb, .record a pa] = ([y, x], second) ∧
      (∀ name language, first.isRecorded name language = second.isRecorded name language) ∧
      (∀ name language, first.filesOf name language = second.filesOf name language) ∧
      (∀ filter?, (first.list filter?).map ReleaseRow.listed =
        (second.list filter?).map ReleaseRow.listed) ∧
      ∀ later, (first.answers later).1 = (second.answers later).1 := by
  have h := after_sound calls
  have hindependent : (after calls).catalog.AreIndependent a b :=
    ⟨hkeys, hpaths, fun path hpath => h.not_owns_of_not_mem_filesOf (ha path hpath),
      fun path hpath => h.not_owns_of_not_mem_filesOf (hb path hpath)⟩
  obtain ⟨hanswer, hcatalog⟩ := h.answer_independent hindependent pa pb
  obtain ⟨hanswer', hcatalog'⟩ := h.answer_independent hindependent.symm pb pa
  rw [hindependent.afterAnswer_comm, ← hcatalog'] at hcatalog
  have hfirst := ((h.step_record a pa).2.step_record b pb).2
  have hsecond := ((h.step_record b pb).2.step_record a pa).2
  have hsame := hfirst.answers_eq hsecond hcatalog
  refine ⟨_, _, _, _, congrArg₂ Prod.mk (congrArg₂ _ rfl (congrArg₂ _ hanswer rfl)) rfl,
    congrArg₂ Prod.mk (congrArg₂ _ rfl (congrArg₂ _ hanswer' rfl)) rfl, ?_, ?_, ?_, hsame⟩
  · intro name language
    exact LedgerAnswer.known.inj (List.singleton_inj.mp (hsame [.isRecorded ⟨name, language⟩]))
  · intro name language
    exact LedgerAnswer.files.inj (List.singleton_inj.mp (hsame [.filesOf ⟨name, language⟩]))
  · intro filter?
    exact LedgerAnswer.releases.inj (List.singleton_inj.mp (hsame [.list filter?]))

/-- A release that owns `x`, and one that owns `y`. -/
def twoOwners : List LedgerCall :=
  [.record (recordingOf "a" ["x"]) .reject, .record (recordingOf "b" ["y"]) .reject]

/-- The first recording frees `x`, the second one meets the owner of `y`. -/
theorem independent_recordings_commute_twoOwners :
    let a := recordingOf "a" ["z"]
    let c := recordingOf "c" ["w", "y"]
    let clash : Clash := ⟨"y", "b", "go"⟩
    a.key ≠ c.key ∧ (∀ path ∈ a.files, path ∉ c.files) ∧
    (∀ path ∈ a.files, path ∉ (after twoOwners).filesOf c.name c.language) ∧
    (∀ path ∈ c.files, path ∉ (after twoOwners).filesOf a.name a.language) ∧
    ∃ first second,
      (after twoOwners).answers [.record a .replace, .record c .reject] =
        ([.recorded .replaced, .refused clash], first) ∧
      (after twoOwners).answers [.record c .reject, .record a .replace] =
        ([.refused clash, .recorded .replaced], second) ∧
      ∀ later, (first.answers later).1 = (second.answers later).1 := by
  intro a c clash
  have hkeys : a.key ≠ c.key := by decide
  have hpaths : ∀ path ∈ a.files, path ∉ c.files := by decide
  have ha : ∀ path ∈ a.files, path ∉ (after twoOwners).filesOf c.name c.language := by decide
  have hc : ∀ path ∈ c.files, path ∉ (after twoOwners).filesOf a.name a.language := by decide +kernel
  obtain ⟨x, y, first, second, hfirst, hsecond, -, -, -, hlater⟩ :=
    independent_recordings_commute twoOwners .replace .reject hkeys hpaths ha hc
  have hx : x = .recorded .replaced := (List.cons.inj (congrArg Prod.fst hfirst)).1.symm
  have hy : y = .refused clash := (List.cons.inj (congrArg Prod.fst hsecond)).1.symm
  subst hx hy
  exact ⟨hkeys, hpaths, ha, hc, first, second, hfirst, hsecond, hlater⟩

end Ledger

end SampleHarvest
