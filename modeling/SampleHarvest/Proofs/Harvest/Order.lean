import SampleHarvest.Proofs.Harvest.Artifacts
import SampleHarvest.Proofs.Path.Order

/-!
# The order of artifacts

Artifacts are sorted by the components of their source and then by their number. Where these two
tell all artifacts apart, the sorted list does not depend on the order in which the files were done,
and the artifacts that are kept are those without an earlier one for the same document.
-/

namespace SampleHarvest

namespace Artifact

/-- An artifact stands in front of another: its source does, or it has the lower number in one
source. Sources are compared by their components. -/
def IsEarlier (a b : Artifact) : Prop :=
  Path.components a.source = Path.components b.source ∧ a.index < b.index ∨
    Path.components a.source ≠ Path.components b.source ∧ Path.le a.source b.source

/-- The order of artifacts with sources compared by their components alone. -/
def keyLe (a b : Artifact) : Bool :=
  if Path.components a.source = Path.components b.source then a.index ≤ b.index
  else Path.le a.source b.source

variable {a b c : Artifact}

theorem keyLe_iff :
    a.keyLe b ↔
      Path.components a.source = Path.components b.source ∧ a.index ≤ b.index ∨
        Path.components a.source ≠ Path.components b.source ∧ Path.le a.source b.source := by
  rw [keyLe]
  by_cases h : Path.components a.source = Path.components b.source <;> simp [h]

theorem keyLe_total (a b : Artifact) : a.keyLe b ∨ b.keyLe a := by
  rw [keyLe_iff, keyLe_iff]
  by_cases h : Path.components a.source = Path.components b.source
  · exact (Nat.le_total a.index b.index).imp (fun hle => Or.inl ⟨h, hle⟩)
      fun hle => Or.inl ⟨h.symm, hle⟩
  · exact (Path.componentsLe_total _ _).imp (fun hle => Or.inr ⟨h, hle⟩)
      fun hle => Or.inr ⟨Ne.symm h, hle⟩

theorem keyLe_trans (hab : a.keyLe b) (hbc : b.keyLe c) : a.keyLe c := by
  rw [keyLe_iff] at hab hbc ⊢
  rcases hab with ⟨hab, hindex⟩ | ⟨hne, hab⟩
  · rcases hbc with ⟨hbc, hindex'⟩ | ⟨hne', hbc⟩
    · exact Or.inl ⟨hab.trans hbc, Nat.le_trans hindex hindex'⟩
    · refine Or.inr ⟨hab ▸ hne', ?_⟩
      rw [Path.le, hab]
      exact hbc
  · rcases hbc with ⟨hbc, -⟩ | ⟨-, hbc⟩
    · refine Or.inr ⟨hbc ▸ hne, ?_⟩
      rw [Path.le, ← hbc]
      exact hab
    · refine Or.inr ⟨fun hac => ?_, Path.componentsLe_trans hab hbc⟩
      rw [Path.le, hac] at hab
      exact hne (hac.trans (Path.componentsLe_antisymm hab hbc))

theorem IsEarlier.keyLe (h : a.IsEarlier b) : a.keyLe b :=
  keyLe_iff.mpr (h.imp_left fun ⟨heq, hlt⟩ => ⟨heq, Nat.le_of_lt hlt⟩)

theorem IsEarlier.not_keyLe (h : a.IsEarlier b) : ¬b.keyLe a := by
  rw [keyLe_iff]
  rintro (⟨heq, hle⟩ | ⟨hne, hba⟩)
  · rcases h with ⟨-, hlt⟩ | ⟨hne, -⟩
    · exact Nat.not_le_of_lt hlt hle
    · exact hne heq.symm
  · rcases h with ⟨heq, -⟩ | ⟨-, hab⟩
    · exact hne heq.symm
    · exact hne (Path.componentsLe_antisymm hba hab)

/-- Two artifacts in this order have the same source and number if the first is not earlier. -/
theorem same_of_keyLe (h : a.keyLe b) (hnot : ¬a.IsEarlier b) :
    Path.components a.source = Path.components b.source ∧ a.index = b.index := by
  rcases keyLe_iff.mp h with ⟨heq, hle⟩ | hne
  · exact ⟨heq, Nat.le_antisymm hle (Nat.le_of_not_lt fun hlt => hnot (Or.inl ⟨heq, hlt⟩))⟩
  · exact absurd (Or.inr hne) hnot

end Artifact

namespace Harvest

/-- Artifacts are known by their source and number, and sources by their components. -/
structure IsKeyed (artifacts : List Artifact) : Prop where
  source_eq : ∀ a ∈ artifacts, ∀ b ∈ artifacts,
    Path.components a.source = Path.components b.source → a.source = b.source
  eq : ∀ a ∈ artifacts, ∀ b ∈ artifacts, a.source = b.source → a.index = b.index → a = b

variable {artifacts others : List Artifact} {a b : Artifact}

theorem IsKeyed.eq_of_keyLe (h : IsKeyed artifacts) (ha : a ∈ artifacts) (hb : b ∈ artifacts)
    (hle : a.keyLe b) (hnot : ¬a.IsEarlier b) : a = b := by
  obtain ⟨hcomponents, hindex⟩ := Artifact.same_of_keyLe hle hnot
  exact h.eq a ha b hb (h.source_eq a ha b hb hcomponents) hindex

theorem IsKeyed.le_eq (h : IsKeyed artifacts) (ha : a ∈ artifacts) (hb : b ∈ artifacts) :
    a.le b = a.keyLe b := by
  rw [Artifact.le, Artifact.keyLe]
  by_cases hsource : a.source = b.source
  · rw [if_pos hsource, if_pos (congrArg Path.components hsource)]
  · rw [if_neg hsource, if_neg (mt (h.source_eq a ha b hb) hsource)]

theorem IsKeyed.sorted (h : IsKeyed artifacts) :
    (artifacts.mergeSort Artifact.le).Pairwise fun a b => a.keyLe b := by
  have hsame := List.map_mergeSort (r := Artifact.le) (s := Artifact.keyLe) (f := id)
    fun a ha b hb => h.le_eq ha hb
  rw [List.map_id, List.map_id] at hsame
  rw [hsame]
  have htrans : ∀ a b c : Artifact, a.keyLe b → b.keyLe c → a.keyLe c := fun _ _ _ =>
    Artifact.keyLe_trans
  have htotal : ∀ a b : Artifact, a.keyLe b || b.keyLe a := fun a b => by
    rw [Bool.or_eq_true]
    exact Artifact.keyLe_total a b
  exact List.pairwise_mergeSort htrans htotal artifacts

/-- Sorting forgets the order in which the artifacts came. -/
theorem IsKeyed.sorted_eq (h : IsKeyed artifacts) (hperm : others.Perm artifacts) :
    others.mergeSort Artifact.le = artifacts.mergeSort Artifact.le := by
  have hothers : IsKeyed others :=
    ⟨fun a ha b hb => h.source_eq a (hperm.mem_iff.mp ha) b (hperm.mem_iff.mp hb),
      fun a ha b hb => h.eq a (hperm.mem_iff.mp ha) b (hperm.mem_iff.mp hb)⟩
  refine List.Perm.eq_of_pairwise (fun a b ha hb hab hba => ?_) hothers.sorted h.sorted ?_
  · have ha' := hperm.mem_iff.mp ((List.mergeSort_perm _ _).mem_iff.mp ha)
    exact h.eq_of_keyLe ha' ((List.mergeSort_perm _ _).mem_iff.mp hb) hab
      fun hearlier => hearlier.not_keyLe hba
  · exact (List.mergeSort_perm _ _).trans (hperm.trans (List.mergeSort_perm _ _).symm)

/-- The artifacts that are kept stand in their order. -/
theorem IsKeyed.keepFirst_pairwise (h : IsKeyed artifacts) :
    (keepFirst (artifacts.mergeSort Artifact.le)).Pairwise Artifact.IsEarlier := by
  have hkept := keepFirst_sublist (artifacts.mergeSort Artifact.le)
  have hpaths := List.pairwise_map.mp (keepFirst_paths (artifacts.mergeSort Artifact.le))
  have hmem : ∀ a ∈ keepFirst (artifacts.mergeSort Artifact.le), a ∈ artifacts := fun a ha =>
    (List.mergeSort_perm _ _).mem_iff.mp (hkept.subset ha)
  refine ((h.sorted.sublist hkept).and hpaths).imp_of_mem fun {a b} ha hb ⟨hle, hpath⟩ => ?_
  by_contra hnot
  exact hpath (congrArg Artifact.path (h.eq_of_keyLe (hmem a ha) (hmem b hb) hle hnot))

/-- An artifact is kept if no earlier one has its document. -/
theorem IsKeyed.mem_keepFirst (h : IsKeyed artifacts) :
    a ∈ keepFirst (artifacts.mergeSort Artifact.le) ↔
      a ∈ artifacts ∧ ∀ b ∈ artifacts, b.IsEarlier a → b.path ≠ a.path := by
  have hsorted := List.mergeSort_perm artifacts Artifact.le
  have hkept := keepFirst_sublist (artifacts.mergeSort Artifact.le)
  -- The one that is kept for a document stands in front of all others of the document.
  have hfirst : ∀ b ∈ artifacts, ∃ first ∈ keepFirst (artifacts.mergeSort Artifact.le),
      first.path = b.path ∧ (first = b ∨ first.keyLe b) := fun b hb =>
    exists_keepFirst h.sorted (hsorted.mem_iff.mpr hb)
  constructor
  · intro ha
    refine ⟨hsorted.mem_iff.mp (hkept.subset ha), fun b hb hearlier hpath => ?_⟩
    obtain ⟨first, hmem, hsame, hle⟩ := hfirst b hb
    obtain rfl := List.inj_on_of_nodup_map (keepFirst_paths _) hmem ha (hsame.trans hpath)
    rcases hle with rfl | hle
    · exact hearlier.not_keyLe hearlier.keyLe
    · exact hearlier.not_keyLe hle
  · rintro ⟨ha, hnone⟩
    obtain ⟨first, hmem, hsame, hle⟩ := hfirst a ha
    rcases hle with rfl | hle
    · exact hmem
    · have hin := hsorted.mem_iff.mp (hkept.subset hmem)
      rw [← h.eq_of_keyLe hin ha hle fun hearlier => hnone first hin hearlier hsame]
      exact hmem

/-! ### Files in another order -/

theorem total_perm (counter : FileHarvest → Nat) {files others : List FileHarvest}
    (h : others.Perm files) : total counter others = total counter files := by
  induction h with
  | nil => rfl
  | cons file _ ih => rw [total, total, ih]
  | swap file other files => exact Nat.add_left_comm _ _ _
  | trans _ _ ih ih' => exact ih.trans ih'

/-- What files give together does not depend on their order, but for the order of the offers. -/
theorem ofFiles_perm {files others : List FileHarvest}
    (hkeyed : IsKeyed (files.flatMap FileHarvest.artifacts)) (h : others.Perm files) :
    (ofFiles others).artifacts = (ofFiles files).artifacts ∧
      (ofFiles others).report = (ofFiles files).report ∧
      (ofFiles others).offered.Perm (ofFiles files).offered := by
  have hsorted := hkeyed.sorted_eq (h.flatMap_right FileHarvest.artifacts)
  refine ⟨?_, ?_, h.flatMap_right FileHarvest.offered⟩
  · rw [ofFiles, hsorted]
    rfl
  · simp only [ofFiles, hsorted, h.length_eq, h.countP_eq, total_perm _ h]

end Harvest

end SampleHarvest
