import SampleHarvest.Proofs.Disk.Walk

/-!
# What changes on a disk

A folder is made where nothing stood. Writing a file changes what stands at one location, where a
file or nothing stood before.
-/

namespace SampleHarvest

namespace Disk

variable {root old new : Node} {disk : Disk} {follows : Bool} {here folder location : Location}
  {name : Text} {parts : List Text}

theorem not_folder_of_file
    (h : root.look location = .nothing ∨ ∃ content, root.look location = .file content) :
    root.look location ≠ .folder := by
  rcases h with h | ⟨content, h⟩ <;> rw [h] <;> nofun

/-- Where no folder and no link stands, something can be put, and all folders and links stay. -/
theorem put_keeps {node : Node}
    (hold : root.look (folder ++ [name]) = .nothing ∨
      ∃ content, root.look (folder ++ [name]) = .file content)
    (hnew : ∀ rest, rest ≠ [] → node.look rest = .nothing) :
    Keeps root (root.put folder name node) := by
  by_cases hfolder : root.look folder = .folder
  · have hlook := Node.look_put hfolder (not_folder_of_file hold) hnew
    have hother : ∀ location look, look ≠ .nothing → (∀ content, look ≠ .file content) →
        root.look location = look → (root.put folder name node).look location = look := by
      intro location look hnothing hfile heq
      rw [hlook, if_neg, heq]
      rintro rfl
      rcases hold with hold | ⟨content, hold⟩
      · exact hnothing (heq.symm.trans hold)
      · exact hfile content (heq.symm.trans hold)
    exact fun location => ⟨hother location .folder nofun nofun,
      fun target => hother location (.link target) nofun nofun⟩
  · rw [Node.put_of_not_folder hfolder]
    exact fun location => ⟨id, fun _ => id⟩

/-! ### Making folders -/

theorem parts_eq {path : Path} (h : Disk.parts path = .ok parts) :
    parts = Text.splitOn '/' path := by
  rw [Disk.parts] at h
  split_ifs at h
  cases h
  rfl

theorem createFolder_ok {path : Path} {disk' : Disk} (h : disk.createFolder path = .ok disk') :
    Disk.parts path = .ok (Text.splitOn '/' path) ∧ ∃ folder name,
      Arrives disk.root false maxLinks (disk.start path) (Text.splitOn '/' path)
        (.vacant folder name) ∧
      disk.root.look folder = .folder ∧ disk' = disk.put folder name (.folder []) := by
  rw [createFolder, create, locate] at h
  cases hparts : Disk.parts path with
  | error fault =>
      rw [hparts] at h
      cases h
  | ok parts =>
      obtain rfl := parts_eq hparts
      rw [hparts] at h
      simp only [bind, Except.bind] at h
      cases hwalk : walk disk.root false maxLinks (disk.start path) (Text.splitOn '/' path) with
      | error fault =>
          rw [hwalk] at h
          cases h
      | ok place =>
          rw [hwalk] at h
          cases place with
          | present location node => cases h
          | vacant folder name =>
              dsimp only at h
              split_ifs at h with hfolder
              cases h
              exact ⟨rfl, folder, name, arrives_of_walk hwalk, Node.any_isFolder_iff.mp hfolder, rfl⟩

/-- What every folder that is made brings about, making some of them one after the other brings
about. -/
theorem createChain_induction {R : Disk → Disk → Prop} (hrefl : ∀ disk, R disk disk)
    (htrans : ∀ {a b c}, R a b → R b c → R a c) {paths : List Path}
    (hcreate : ∀ path ∈ paths, ∀ {a b}, a.createFolder path = .ok b → R a b) (disk : Disk) :
    R disk (disk.createChain paths).1 := by
  induction paths generalizing disk with
  | nil => exact hrefl disk
  | cons path above ih =>
      have hpath := @hcreate path List.mem_cons_self
      have habove := ih (fun other hother => hcreate other (List.mem_cons_of_mem path hother)) disk
      rw [createChain]
      split
      · next disk' hmade => exact hpath hmade
      · split
        · next disk' fault hchain =>
            rw [hchain] at habove
            exact habove
        · next disk' hchain =>
            rw [hchain] at habove
            split
            · next disk'' hmade => exact htrans habove (hpath hmade)
            · split_ifs <;> exact habove
            · exact habove
      · split_ifs <;> exact hrefl disk
      · exact hrefl disk

/-! ### Writing -/

theorem filePlace_not_endsWith {path : Path} {place : Location × Text}
    (h : disk.filePlace path = .ok place) : ¬Text.endsWith path "/" := by
  intro hend
  rw [filePlace] at h
  cases hparts : Disk.parts path with
  | error fault =>
      rw [hparts] at h
      cases h
  | ok parts =>
      rw [hparts] at h
      simp only [bind, Except.bind, if_pos hend] at h
      split at h <;> cases h

theorem vacantPlace_ok {start : Location} {place : Location × Text}
    (h : disk.vacantPlace start parts folder name = .ok place) : place = (folder, name) ∧
      ∃ location node, walk (disk.root.put folder name (.file (.bytes []))) true maxLinks start parts =
        .ok (.present location node) := by
  rw [vacantPlace] at h
  split at h
  · next location node hwalk =>
      cases h
      exact ⟨rfl, location, node, hwalk⟩
  · cases h
  · cases h

theorem filePlace_ok {path : Path} (h : disk.filePlace path = .ok (folder, name)) :
    Disk.parts path = .ok (Text.splitOn '/' path) ∧
    (walk disk.root true maxLinks (disk.start path) (Text.splitOn '/' path) =
        .ok (.vacant folder name) ∧
        (∃ location node, walk (disk.root.put folder name (.file (.bytes []))) true maxLinks
          (disk.start path) (Text.splitOn '/' path) = .ok (.present location node)) ∨
      ∃ content, walk disk.root true maxLinks (disk.start path) (Text.splitOn '/' path) =
        .ok (.present (folder ++ [name]) (.file content))) := by
  have hend := filePlace_not_endsWith h
  rw [filePlace] at h
  cases hparts : Disk.parts path with
  | error fault =>
      rw [hparts] at h
      cases h
  | ok parts =>
      obtain rfl := parts_eq hparts
      rw [hparts] at h
      refine ⟨rfl, ?_⟩
      simp only [bind, Except.bind, if_neg hend] at h
      cases hwalk : walk disk.root true maxLinks (disk.start path) (Text.splitOn '/' path) with
      | error fault =>
          rw [hwalk] at h
          cases h
      | ok place =>
          rw [hwalk] at h
          cases place with
          | vacant folder name =>
              obtain ⟨hplace, hmade⟩ := vacantPlace_ok h
              cases hplace
              exact Or.inl ⟨rfl, hmade⟩
          | present location node =>
              cases node with
              | folder entries => cases h
              | link target => cases h
              | file content =>
                  refine Or.inr ⟨content, ?_⟩
                  dsimp only at h
                  cases hlast : location.getLast? with
                  | none =>
                      rw [hlast] at h
                      cases h
                  | some last =>
                      obtain ⟨above, rfl⟩ := List.getLast?_eq_some_iff.mp hlast
                      rw [hlast, List.dropLast_concat] at h
                      cases h
                      rfl

theorem writeText_ok {path : Path} {text : Text} {disk' : Disk}
    (h : disk.writeText path text = .ok disk') :
    ∃ folder name, disk.filePlace path = .ok (folder, name) ∧
      disk' = disk.put folder name (.file (.bytes (Utf8.encode text))) := by
  rw [writeText, writeFile] at h
  cases hplace : disk.filePlace path with
  | error fault =>
      rw [hplace] at h
      cases h
  | ok place =>
      rw [hplace] at h
      cases h
      exact ⟨place.1, place.2, rfl, rfl⟩

end Disk

end SampleHarvest
