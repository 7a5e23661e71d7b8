import SampleHarvest.Proofs.Disk.Change

/-!
# What is done a second time

A folder that was made is there the second time, as long as folders stay, so nothing is made again.
A file that was written is written over at the same place.
-/

namespace SampleHarvest

namespace Disk

variable {disk made later : Disk} {path : Path} {location folder : Location} {name : Text}

/-! ### Folders -/

theorem hasFolder_iff_folderAt? :
    disk.hasFolder path ↔ ∃ location, disk.folderAt? path = some location := by
  rw [hasFolder, node, folderAt?]
  cases disk.locate true path with
  | error fault => simp
  | ok place =>
      cases place with
      | vacant folder name => simp
      | present location node => cases node <;> simp [Node.isFolder]

theorem hasFolder_iff : disk.hasFolder path ↔
    Disk.parts path = .ok (Text.splitOn '/' path) ∧
      ∃ location, LeadsTo disk.root location maxLinks (disk.start path) (Text.splitOn '/' path) := by
  rw [hasFolder_iff_folderAt?]
  simp only [folderAt?_eq_some_iff, exists_and_left]

theorem hasFolder_keeps (hkeeps : Keeps disk.root later.root)
    (hworking : later.workingFolder = disk.workingFolder) (h : disk.hasFolder path) :
    later.hasFolder path := by
  obtain ⟨hparts, location, hleads⟩ := hasFolder_iff.mp h
  refine hasFolder_iff.mpr ⟨hparts, location, ?_⟩
  rw [start, hworking]
  exact hleads.keeps hkeeps

/-- A folder that is there is not made again. -/
theorem createFolder_of_hasFolder (h : disk.hasFolder path) :
    disk.createFolder path = .error .occupied := by
  obtain ⟨hparts, location, hleads⟩ := hasFolder_iff.mp h
  obtain ⟨last, found, harrives⟩ := hleads.arrives
  have hlocate : disk.locate false path = .ok (.present last found) := by
    rw [locate, hparts]
    exact harrives.walk
  rw [createFolder, create, hlocate]
  rfl

theorem hasFolder_of_createFolder (h : disk.createFolder path = .ok made) :
    made.hasFolder path := by
  obtain ⟨hparts, folder, name, harrives, hfolder, rfl⟩ := createFolder_ok h
  have hold := harrives.look
  have hmade : (disk.root.put folder name (.folder [])).look (folder ++ [name]) = .folder :=
    (Node.look_put hfolder (by rw [hold]; nofun) Node.look_folder_below _).trans (if_pos rfl)
  exact hasFolder_iff.mpr ⟨hparts, folder ++ [name],
    harrives.leadsTo (put_keeps (Or.inl hold) Node.look_folder_below) hmade⟩

theorem hasFolder_of_createChain {above : List Path}
    (h : disk.createChain (path :: above) = (made, .ok ())) : made.hasFolder path := by
  rw [createChain] at h
  split at h
  · next disk' hcreate =>
      cases h
      exact hasFolder_of_createFolder hcreate
  · split at h
    · cases h
    · next disk' hchain =>
        split at h
        · next disk'' hcreate =>
            cases h
            exact hasFolder_of_createFolder hcreate
        · split_ifs at h with hfolder
          · cases h
            exact hfolder
          · cases h
        · cases h
  · split_ifs at h with hfolder
    · cases h
      exact hfolder
    · cases h
  · cases h

/-- Folders that were made are there the second time. -/
theorem createFolders_again (h : disk.createFolders path = (made, .ok ()))
    (hkeeps : Keeps made.root later.root) (hworking : later.workingFolder = made.workingFolder) :
    later.createFolders path = (later, .ok ()) := by
  rw [createFolders, folderPaths] at h ⊢
  cases hparent : Path.parent? path with
  | none => rfl
  | some above =>
      rw [hparent] at h
      have hfolder := hasFolder_keeps hkeeps hworking (hasFolder_of_createChain h)
      dsimp only
      rw [createChain, createFolder_of_hasFolder hfolder]
      exact if_pos hfolder

/-! ### Files -/

theorem filePlace_of_fileAt? (hend : ¬path.endsWith "/")
    (hfile : disk.fileAt? path = some (folder ++ [name])) :
    disk.filePlace path = .ok (folder, name) := by
  obtain ⟨hparts, content, harrives⟩ := fileAt?_eq_some_iff.mp hfile
  rw [filePlace, hparts]
  simp only [bind, Except.bind, if_neg hend, harrives.walk]
  simp

theorem filePlace_again (h : disk.filePlace path = .ok (folder, name))
    (hfile : later.fileAt? path = some (folder ++ [name])) :
    later.filePlace path = .ok (folder, name) :=
  filePlace_of_fileAt? (filePlace_not_endsWith h) hfile

end Disk

end SampleHarvest
