import SampleHarvest.Proofs.Disk.Repetition
import SampleHarvest.Proofs.Ledger.Integrity

/-!
# What opening and storing a ledger change

Opening a ledger makes the folders above it, the file and its lock file where they are missing, and
drops what another run left beside the file. The rows in the file stay the same. Storing a ledger
puts its rows into the file and drops the journal beside it.
-/

namespace SampleHarvest

namespace Disk

/-! ### The rows of a ledger file -/

/-- The rows at a place. Where no file stands there are no rows, and a file that is no ledger has
none either. -/
def rowsAt? (disk : Disk) (place : Location × Text) : Option Ledger :=
  match disk.root.look (place.1 ++ [place.2]) with
  | .file content => (rowsOf content).toOption
  | _ => some .empty

/-- The place where the rows of the ledger at a path are kept, once the folders above it are
made. -/
def ledgerSeat? (disk : Disk) (path : Path) : Option (Location × Text) :=
  match ledgerAddress path with
  | .error _ => none
  | .ok address =>
    if address.isInMemory then none
    else (disk.createLedgerFolder path).1.ledgerPlace? address.path

/-- The location of a file that may be left beside a ledger file. -/
def IsLeftover (place : Location × Text) (location : Location) : Prop :=
  ∃ name ∈ [journalName place.2, logName place.2, logIndexName place.2], location = place.1 ++ [name]

/-- The location of a ledger file, or of one that may be left beside it. -/
def IsLedgerFile (place : Location × Text) (location : Location) : Prop :=
  location = place.1 ++ [place.2] ∨ IsLeftover place location

/-- The location of a file that belongs to the ledger at a path and a place: its lock file, its file,
or one that may be left beside it. -/
def IsOwnFile (disk : Disk) (path : Path) (place? : Option (Location × Text))
    (location : Location) : Prop :=
  disk.fileAt? (lockPath path) = some location ∨
    ∃ place, place? = some place ∧ IsLedgerFile place location

variable {disk old new made : Disk} {scope : Scope} {place : Location × Text} {path : Path}
  {folder location : Location} {name : Text} {opened : OpenLedger}

theorem rowsAt?_eq_of_look
    (h : new.root.look (place.1 ++ [place.2]) = old.root.look (place.1 ++ [place.2])) :
    new.rowsAt? place = old.rowsAt? place := by
  rw [rowsAt?, rowsAt?, h]

/-- Where nothing is written or dropped, the rows are the same. -/
theorem Changes.rowsAt?_eq (h : Changes scope old new)
    (hwrites : ¬scope.writes (place.1 ++ [place.2]))
    (hdrops : ¬scope.drops (place.1 ++ [place.2])) : new.rowsAt? place = old.rowsAt? place := by
  rcases h.look_eq_or hwrites hdrops with hsame | ⟨-, hnothing, hfolder⟩
  · exact rowsAt?_eq_of_look hsame
  · rw [rowsAt?, rowsAt?, hnothing, hfolder]

/-- An empty file that is made has no rows, like the place where it is made. -/
theorem rowsAt?_put_empty (hfolder : disk.root.look folder = .folder)
    (hold : disk.root.look (folder ++ [name]) = .nothing) :
    (disk.put folder name (.file (.bytes []))).rowsAt? place = disk.rowsAt? place := by
  rw [rowsAt?, rowsAt?, look_put_file hfolder (Or.inl hold)]
  split_ifs with hhere
  · rw [hhere, hold]
    rfl
  · rfl

theorem not_isLeftover_self (place : Location × Text) : ¬IsLeftover place (place.1 ++ [place.2]) := by
  rintro ⟨other, hother, hsame⟩
  obtain rfl : place.2 = other := (List.cons.inj (List.append_cancel_left hsame)).1
  simp [journalName, logName, logIndexName] at hother

/-! ### The lock file -/

/-- The lock file is there, and is made only where nothing stands. -/
theorem touch_ok (h : disk.touch path = .ok made) : ∃ folder name,
    disk.filePlace path = .ok (folder, name) ∧ made.fileAt? path = some (folder ++ [name]) ∧
    disk.root.look folder = .folder ∧
    (made = disk ∨ disk.root.look (folder ++ [name]) = .nothing ∧
      made = disk.put folder name (.file (.bytes []))) := by
  rw [touch] at h
  cases hplace : disk.filePlace path with
  | error fault =>
      rw [hplace] at h
      cases h
  | ok place =>
      obtain ⟨folder, name⟩ := place
      obtain ⟨hfolder, hold, hleads⟩ := filePlace_leads hplace
      rw [hplace] at h
      simp only [bind, Except.bind] at h
      refine ⟨folder, name, rfl, ?_⟩
      rcases hold with hnothing | ⟨content, hfile⟩
      · rw [Node.look_eq_nothing_iff.mp hnothing] at h
        cases h
        exact ⟨hleads _, hfolder, Or.inr ⟨hnothing, rfl⟩⟩
      · have hget := Node.look_eq_file_iff.mp hfile
        have hsame := hleads content
        rw [put, Node.put_self hget] at hsame
        rw [hget] at h
        cases h
        exact ⟨hsame, hfolder, Or.inl rfl⟩

/-- Touching makes the lock file where it is missing, and changes no rows. -/
theorem touch_changes (h : disk.touch path = .ok made) : ∃ lock,
    made.fileAt? path = some lock ∧
    Changes ⟨fun _ => False, fun location => location = lock ∧ disk.root.look location = .nothing,
      fun _ => False⟩ disk made ∧
    (∀ location content, disk.root.look location = .file content →
      made.root.look location = .file content) ∧
    ∀ place, made.rowsAt? place = disk.rowsAt? place := by
  obtain ⟨folder, name, -, hlock, hfolder, rfl | ⟨hold, rfl⟩⟩ := touch_ok h
  · exact ⟨_, hlock, .refl, fun _ _ => id, fun _ => rfl⟩
  · refine ⟨_, hlock, .single (.write ⟨rfl, hold⟩ hfolder (Or.inl hold)),
      fun location content hfile => ?_, fun _ => rowsAt?_put_empty hfolder hold⟩
    rw [look_put_file hfolder (Or.inl hold), if_neg]
    · exact hfile
    · rintro rfl
      rw [hold] at hfile
      cases hfile

/-! ### The files beside the ledger file -/

theorem firstByte?_eq (disk : Disk) (folder : Location) (name : Text) :
    disk.firstByte? folder name =
      match disk.root.look (folder ++ [name]) with
      | .file (.bytes bytes) => bytes.head?
      | _ => none := by
  rw [firstByte?, Node.look]
  cases disk.root.get? (folder ++ [name]) with
  | none => rfl
  | some found =>
      cases found with
      | file content => cases content <;> rfl
      | link target => rfl
      | folder entries => rfl

theorem dropLeftovers_changes
    (hdrops : ∀ location, IsLeftover (folder, name) location → scope.drops location) (disk : Disk)
    (content : Content) : Changes scope disk (disk.dropLeftovers folder name content) := by
  have hdrop : ∀ (between : Disk), ∀ other ∈ [journalName name, logName name, logIndexName name],
      Changes scope between (between.drop folder other) := fun between other hother =>
    .single (.drop (hdrops _ ⟨other, hother, rfl⟩))
  have hjournal : Changes scope disk (disk.dropJournal folder name (isBlankFile content)) := by
    rw [dropJournal]
    split
    · exact .refl
    · split_ifs
      · exact hdrop disk (journalName name) (by simp)
      · exact .refl
  refine hjournal.trans ?_
  unfold dropLeftovers dropLog
  split
  · exact .refl
  · dsimp only
    split_ifs
    · exact hdrop _ (logName name) (by simp)
    · exact (hdrop _ (logName name) (by simp)).trans (hdrop _ (logIndexName name) (by simp))

theorem firstByte?_drop_self (disk : Disk) (folder : Location) (name : Text) :
    (disk.drop folder name).firstByte? folder name = none := by
  rw [firstByte?_eq, look_drop]
  split_ifs with hfile
  · rfl
  · cases hlook : disk.root.look (folder ++ [name]) with
    | file content => exact absurd ⟨rfl, by rw [hlook]; rfl⟩ hfile
    | nothing | link | folder => rfl

theorem firstByte?_drop_of_ne {other : Text} (h : other ≠ name) (disk : Disk) (folder : Location) :
    (disk.drop folder name).firstByte? folder other = disk.firstByte? folder other := by
  rw [firstByte?_eq, firstByte?_eq, look_drop, if_neg]
  rintro ⟨hsame, -⟩
  exact h (List.cons.inj (List.append_cancel_left hsame)).1

/-- Nothing is left in a log. -/
theorem firstByte?_dropLeftovers (disk : Disk) (folder : Location) (name : Text)
    (content : Content) :
    (disk.dropLeftovers folder name content).firstByte? folder (logName name) = none := by
  have hindex : logName name ≠ logIndexName name := by simp [logName, logIndexName]
  unfold dropLeftovers dropLog
  split
  · assumption
  · dsimp only
    split_ifs
    · exact firstByte?_drop_self _ _ _
    · rw [firstByte?_drop_of_ne hindex]
      exact firstByte?_drop_self _ _ _

/-- With nothing in the files beside the ledger file, none of them is dropped. -/
theorem dropLeftovers_eq {content : Content} (hjournal : disk.firstByte? folder (journalName name) = none)
    (hlog : disk.firstByte? folder (logName name) = none) :
    disk.dropLeftovers folder name content = disk := by
  simp only [dropLeftovers, dropJournal, dropLog, hjournal, hlog]

theorem clearPlace_changes {place? : Option (Location × Text)}
    (hdrops : ∀ place, place? = some place → ∀ location, IsLeftover place location →
      scope.drops location) (disk : Disk) (isReadOnly : Bool) (content : Content) :
    Changes scope disk (disk.clearPlace place? isReadOnly content) := by
  unfold clearPlace
  cases place? with
  | none => exact .refl
  | some place =>
      dsimp only
      split_ifs
      · exact .refl
      · exact dropLeftovers_changes (hdrops _ rfl) disk content

theorem rowsAt?_clearPlace (disk : Disk) (place : Location × Text) (isReadOnly : Bool)
    (content : Content) :
    (disk.clearPlace (some place) isReadOnly content).rowsAt? place = disk.rowsAt? place := by
  have hclear : Changes ⟨fun _ => False, fun _ => False, IsLeftover place⟩ disk
      (disk.clearPlace (some place) isReadOnly content) :=
    clearPlace_changes (fun _ hsame => Option.some.inj hsame ▸ fun _ => id) disk _ _
  exact hclear.rowsAt?_eq id (not_isLeftover_self place)

/-! ### Storing -/

/-- The place of an open ledger is that of a file. -/
def HasSeat (disk : Disk) (opened : OpenLedger) : Prop :=
  ∀ place, opened.place? = some place →
    ∃ content, disk.root.look (place.1 ++ [place.2]) = .file content

theorem storeLedger_changes (hseat : disk.HasSeat opened)
    (hwrites : ∀ place, opened.place? = some place → scope.writes (place.1 ++ [place.2]))
    (hdrops : ∀ place, opened.place? = some place → ∀ location, IsLeftover place location →
      scope.drops location) : Changes scope disk (disk.storeLedger opened) := by
  rw [storeLedger]
  cases hplace : opened.place? with
  | none => exact .refl
  | some place =>
      obtain ⟨folder, name⟩ := place
      dsimp only
      split_ifs
      · exact .refl
      · obtain ⟨content, hfile⟩ := hseat _ hplace
        have hfolder := Node.look_above (by rw [hfile]; nofun) (List.cons_ne_nil name [])
        exact (Relation.ReflTransGen.single
          (.write (hwrites _ hplace) hfolder (Or.inr ⟨content, hfile⟩))).tail
          (.drop (hdrops _ hplace _ ⟨_, by simp, rfl⟩))

/-- Storing a ledger changes its own files only. -/
theorem storeLedger_changesAt {place : Location × Text} (hseat : disk.HasSeat opened)
    (hplace : opened.place? = some place) :
    Changes ⟨fun _ => False, IsLedgerFile place, IsLeftover place⟩ disk
      (disk.storeLedger opened) := by
  refine storeLedger_changes hseat (fun other hother => ?_) fun other hother location hleft => ?_
  all_goals
    obtain rfl := Option.some.inj (hplace.symm.trans hother)
  · exact Or.inl rfl
  · exact hleft

/-- After a ledger is stored, its rows are in its file and there is no journal. -/
theorem storeLedger_look (hseat : disk.HasSeat opened) (hplace : opened.place? = some (folder, name))
    (hwrite : opened.isReadOnly = false) (location : Location) :
    (disk.storeLedger opened).root.look location =
      if location = folder ++ [name] then .file (.ledger opened.ledger)
      else if location = folder ++ [journalName name] ∧ (disk.root.look location).isFile then .nothing
      else disk.root.look location := by
  obtain ⟨content, hfile⟩ := hseat _ hplace
  have hfolder := Node.look_above (by rw [hfile]; nofun) (List.cons_ne_nil name [])
  rw [storeLedger, hplace]
  simp only [hwrite, Bool.false_eq_true, if_false]
  have hjournal : journalName name ≠ name := by simp [journalName]
  rw [look_drop, look_put_file hfolder (Or.inr ⟨content, hfile⟩)]
  by_cases hhere : location = folder ++ [name]
  · subst hhere
    rw [if_pos rfl, if_pos rfl, if_neg]
    rintro ⟨hsame, -⟩
    exact hjournal (List.cons.inj (List.append_cancel_left hsame)).1.symm
  · rw [if_neg hhere, if_neg hhere]

/-- Storing puts the rows of the ledger at its place, if they may be changed. -/
theorem rowsAt?_storeLedger (hseat : disk.HasSeat opened) (hplace : opened.place? = some place) :
    (disk.storeLedger opened).rowsAt? place =
      if opened.isReadOnly then disk.rowsAt? place else some opened.ledger := by
  split_ifs with hwrite
  · rw [storeLedger, hplace]
    simp only [hwrite, if_true]
  · rw [rowsAt?, storeLedger_look hseat hplace (by simpa using hwrite), if_pos rfl]
    rfl

/-- A ledger that is in its file, with no journal beside it, is stored already. -/
theorem storeLedger_eq (hfile : ∀ place, opened.place? = some place → opened.isReadOnly = false →
      disk.root.look (place.1 ++ [place.2]) = .file (.ledger opened.ledger) ∧
        ¬(disk.root.look (place.1 ++ [journalName place.2])).isFile) :
    disk.storeLedger opened = disk := by
  rw [storeLedger]
  cases hplace : opened.place? with
  | none => rfl
  | some place =>
      obtain ⟨folder, name⟩ := place
      dsimp only
      split_ifs with hwrite
      · rfl
      · obtain ⟨hrows, hjournal⟩ := hfile _ hplace (by simpa using hwrite)
        have hput : disk.put folder name (.file (.ledger opened.ledger)) = disk := by
          rw [put, Node.put_self (Node.look_eq_file_iff.mp hrows)]
        rw [hput, drop]
        split
        · next content hget =>
            rw [Node.look_eq_file_iff.mpr hget] at hjournal
            exact absurd rfl hjournal
        · rfl

/-! ### The steps of opening -/

theorem createLedgerFolder_changes (hmakes : ∀ location, scope.makes location) (disk : Disk)
    (path : Path) : Changes scope disk (disk.createLedgerFolder path).1 := by
  rw [createLedgerFolder]
  cases Path.parent? path with
  | none => exact .refl
  | some above =>
      have hchanges := disk.createFolders_changes hmakes above
      dsimp only
      generalize disk.createFolders above = made at hchanges
      obtain ⟨made, result⟩ := made
      cases result <;> exact hchanges

/-- All that looking for the file of a ledger can come to: it fails, there is no file, the file is
found at its place, or it is made there. -/
theorem ledgerFile_cases (disk : Disk) (path : Path) (address : LedgerAddress) :
    (∃ fault, disk.ledgerFile path address = (disk, .error fault)) ∨
    (address.isInMemory ∧ disk.ledgerFile path address = (disk, .ok (none, .bytes []))) ∨
    ¬address.isInMemory ∧ (∀ model ∈ address.model?, disk.has model) ∧
      ∃ folder name, disk.ledgerPlace? address.path = some (folder, name) ∧
        ((∃ content, disk.root.look (folder ++ [name]) = .file content ∧
          disk.ledgerFile path address = (disk, .ok (some (folder, name), content))) ∨
        disk.root.look folder = .folder ∧ disk.root.look (folder ++ [name]) = .nothing ∧
          disk.ledgerFile path address = (disk.put folder name (.file (.bytes [])),
            .ok (some (folder, name), .bytes []))) := by
  rw [ledgerFile]
  by_cases hmemory : address.isInMemory
  · exact Or.inr (Or.inl ⟨hmemory, if_pos hmemory⟩)
  rw [if_neg hmemory]
  cases hplace : disk.ledgerPlace? address.path with
  | none => exact Or.inl ⟨_, rfl⟩
  | some place =>
      obtain ⟨folder, name⟩ := place
      by_cases hmodel : address.model?.any fun model => !disk.has model
      · exact Or.inl ⟨_, if_pos hmodel⟩
      simp only [if_neg hmodel]
      have hmodels : ∀ model ∈ address.model?, disk.has model := by
        intro model hmem
        by_contra hmissing
        exact hmodel ((Option.any_eq_true _ _).mpr ⟨model, hmem, by simpa using hmissing⟩)
      cases hget : disk.root.get? (folder ++ [name]) with
      | none =>
          by_cases hmake : (disk.root.get? folder).any Node.isFolder ∧ address.access = .create
          · refine Or.inr (Or.inr ⟨hmemory, hmodels, folder, name, rfl, Or.inr ?_⟩)
            exact ⟨Node.any_isFolder_iff.mp hmake.1, Node.look_eq_nothing_iff.mpr hget, if_pos hmake⟩
          · exact Or.inl ⟨_, if_neg hmake⟩
      | some node =>
          cases node with
          | file content =>
              refine Or.inr (Or.inr ⟨hmemory, hmodels, folder, name, rfl, Or.inl ⟨content, ?_, rfl⟩⟩)
              exact Node.look_eq_file_iff.mpr hget
          | link target => exact Or.inl ⟨_, rfl⟩
          | folder entries => exact Or.inl ⟨_, rfl⟩

theorem ledgerFile_ok {address : LedgerAddress} {found : Disk}
    {place? : Option (Location × Text)} {content : Content}
    (h : disk.ledgerFile path address = (found, .ok (place?, content))) :
    (address.isInMemory ∧ place? = none ∧ content = .bytes []) ∨
    ∃ place, ¬address.isInMemory ∧ place? = some place ∧
      disk.ledgerPlace? address.path = some place ∧
      (∀ model ∈ address.model?, disk.has model) ∧
      found.root.look (place.1 ++ [place.2]) = .file content := by
  rcases ledgerFile_cases disk path address with ⟨fault, hfail⟩ | ⟨hmemory, hnone⟩ |
    ⟨hmemory, hmodel, folder, name, hplace, ⟨held, hlook, hfile⟩ | ⟨hfolder, hold, hmade⟩⟩
  · cases hfail.symm.trans h
  · cases hnone.symm.trans h
    exact Or.inl ⟨hmemory, rfl, rfl⟩
  · cases hfile.symm.trans h
    exact Or.inr ⟨_, hmemory, rfl, hplace, hmodel, hlook⟩
  · cases hmade.symm.trans h
    exact Or.inr ⟨_, hmemory, rfl, hplace, hmodel,
      (look_put_file hfolder (Or.inl hold) _).trans (if_pos rfl)⟩

/-- It stands in a folder, which was there before. -/
theorem ledgerFile_folder {address : LedgerAddress} {found : Disk} {content : Content}
    (h : disk.ledgerFile path address = (found, .ok (some place, content))) :
    disk.root.look place.1 = .folder := by
  rcases ledgerFile_cases disk path address with ⟨fault, hfail⟩ | ⟨hmemory, hnone⟩ |
    ⟨hmemory, hmodel, folder, name, hplace, ⟨held, hlook, hfile⟩ | ⟨hfolder, hold, hmade⟩⟩
  · cases hfail.symm.trans h
  · cases hnone.symm.trans h
  · cases hfile.symm.trans h
    exact Node.look_above (by rw [hlook]; nofun) (List.cons_ne_nil name [])
  · cases hmade.symm.trans h
    exact hfolder

theorem ledgerFile_changes {address : LedgerAddress}
    (hwrites : ∀ place, ¬address.isInMemory → disk.ledgerPlace? address.path = some place →
      scope.writes (place.1 ++ [place.2])) :
    Changes scope disk (disk.ledgerFile path address).1 := by
  rcases ledgerFile_cases disk path address with ⟨fault, hfail⟩ | ⟨hmemory, hnone⟩ |
    ⟨hmemory, -, folder, name, hplace, ⟨held, hlook, hfile⟩ | ⟨hfolder, hold, hmade⟩⟩
  · rw [hfail]
  · rw [hnone]
  · rw [hfile]
  · rw [hmade]
    exact .single (.write (hwrites _ hmemory hplace) hfolder (Or.inl hold))

theorem rowsAt?_ledgerFile {address : LedgerAddress} :
    (disk.ledgerFile path address).1.rowsAt? place = disk.rowsAt? place := by
  rcases ledgerFile_cases disk path address with ⟨fault, hfail⟩ | ⟨hmemory, hnone⟩ |
    ⟨hmemory, -, folder, name, hplace, ⟨held, hlook, hfile⟩ | ⟨hfolder, hold, hmade⟩⟩
  · rw [hfail]
  · rw [hnone]
  · rw [hfile]
  · rw [hmade]
    exact rowsAt?_put_empty hfolder hold

theorem openContent_ok {address : LedgerAddress} {place? : Option (Location × Text)}
    {content : Content} (h : openContent address place? content = .ok opened) :
    rowsOf content = .ok opened.ledger ∧ opened.place? = place? ∧
      opened.isReadOnly = address.isReadOnly ∧ opened.sharedName? = address.sharedName? := by
  rw [openContent] at h
  cases hrows : rowsOf content with
  | error fault =>
      rw [hrows] at h
      cases h
  | ok ledger =>
      rw [hrows] at h
      dsimp only at h
      split_ifs at h
      cases h
      exact ⟨rfl, rfl, rfl, rfl⟩

/-- The rows of a ledger file are read in these steps. -/
theorem readLedger_ok {address : LedgerAddress} {place? : Option (Location × Text)}
    {content : Content} {start : Disk}
    (h : disk.readLedger path address place? content = (start, .ok opened)) :
    ∃ touched, disk.touch (lockPath path) = .ok touched ∧
      openContent address place? content = .ok opened ∧
      start = (touched.clearPlace place? address.isReadOnly content).storeLedger opened := by
  rw [readLedger] at h
  cases htouch : disk.touch (lockPath path) with
  | error fault =>
      rw [htouch] at h
      cases h
  | ok touched =>
      rw [htouch] at h
      dsimp only at h
      cases hcontent : openContent address place? content with
      | error fault =>
          rw [hcontent] at h
          cases h
      | ok other =>
          rw [hcontent] at h
          cases h
          exact ⟨touched, rfl, rfl, rfl⟩

theorem openLedger_ok {start : Disk} (h : disk.openLedger path = (start, .ok opened)) :
    ∃ address made found touched place? content,
      ledgerAddress path = .ok address ∧ disk.createLedgerFolder path = (made, .ok ()) ∧
      made.ledgerFile path address = (found, .ok (place?, content)) ∧
      found.touch (lockPath path) = .ok touched ∧
      openContent address place? content = .ok opened ∧
      start = (touched.clearPlace place? address.isReadOnly content).storeLedger opened := by
  rw [openLedger] at h
  cases hmade : disk.createLedgerFolder path with
  | mk made result =>
      rw [hmade] at h
      cases result with
      | error failure => cases h
      | ok _ =>
          dsimp only at h
          cases haddress : ledgerAddress path with
          | error fault =>
              rw [haddress] at h
              cases h
          | ok address =>
              rw [haddress] at h
              dsimp only at h
              cases hfile : made.ledgerFile path address with
              | mk found result =>
                  rw [hfile] at h
                  cases result with
                  | error fault => cases h
                  | ok held =>
                      obtain ⟨touched, htouch, hcontent, rfl⟩ := readLedger_ok h
                      exact ⟨address, made, found, touched, held.1, held.2, rfl, rfl, hfile, htouch,
                        hcontent, rfl⟩

/-- What opening may change once the folders above the ledger are made: the ledger file and the lock
file are written, and what is left beside the ledger file is dropped. -/
def Scope.opening (place? : Option (Location × Text)) (lock : Location) : Scope where
  makes _ := False
  writes location := location = lock ∨ ∃ place, place? = some place ∧ location = place.1 ++ [place.2]
  drops location := ∃ place, place? = some place ∧ IsLeftover place location

/-- What opening may change, told from the disk before and the disk after: folders are made, the lock
file is made where it is missing, and the files of the ledger are written and dropped. -/
def Scope.openingFrom (disk start : Disk) (path : Path) (place? : Option (Location × Text)) :
    Scope where
  makes _ := True
  writes location :=
    (start.fileAt? (lockPath path) = some location ∧ disk.root.look location = .nothing) ∨
      ∃ place, place? = some place ∧ IsLedgerFile place location
  drops location := ∃ place, place? = some place ∧ IsLeftover place location

structure IsOpen (disk : Disk) (opened : OpenLedger) : Prop where
  rows : ∀ place, opened.place? = some place →
    ∃ content, disk.root.look (place.1 ++ [place.2]) = .file content ∧
      rowsOf content = .ok opened.ledger
  /-- If they may be changed, they are there as a ledger. -/
  stored : ∀ place, opened.place? = some place → opened.isReadOnly = false →
    disk.root.look (place.1 ++ [place.2]) = .file (.ledger opened.ledger)
  journal : ∀ place, opened.place? = some place → opened.isReadOnly = false →
    ¬(disk.root.look (place.1 ++ [journalName place.2])).isFile
  log : ∀ place, opened.place? = some place → opened.isReadOnly = false →
    disk.firstByte? place.1 (logName place.2) = none

theorem IsOpen.hasSeat (h : disk.IsOpen opened) : disk.HasSeat opened := fun place hplace => by
  obtain ⟨content, hfile, -⟩ := h.rows place hplace
  exact ⟨content, hfile⟩

theorem IsOpen.rowsAt?_eq (h : disk.IsOpen opened) (hplace : opened.place? = some place) :
    disk.rowsAt? place = some opened.ledger := by
  obtain ⟨content, hfile, hrows⟩ := h.rows place hplace
  rw [rowsAt?, hfile]
  dsimp only
  rw [hrows]
  rfl

variable {start : Disk}

/-- After a ledger is stored, its rows are in its file, and there is no journal and no new log. -/
theorem storeLedger_isOpen (hseat : disk.HasSeat opened) (hwrite : opened.isReadOnly = false)
    (hlog : ∀ place, opened.place? = some place →
      disk.firstByte? place.1 (logName place.2) = none) : (disk.storeLedger opened).IsOpen opened := by
  have hlook := fun place (hplace : opened.place? = some place) =>
    storeLedger_look hseat hplace hwrite
  have hstored : ∀ place, opened.place? = some place →
      (disk.storeLedger opened).root.look (place.1 ++ [place.2]) = .file (.ledger opened.ledger) :=
    fun place hplace => (hlook place hplace _).trans (if_pos rfl)
  refine ⟨fun place hplace => ⟨_, hstored place hplace, rfl⟩, fun place hplace _ => hstored place hplace,
    fun place hplace _ => ?_, fun place hplace _ => ?_⟩
  · have hname : journalName place.2 ≠ place.2 := by simp [journalName]
    rw [hlook place hplace, if_neg fun h => hname (List.cons.inj (List.append_cancel_left h)).1]
    split_ifs with hfile
    · nofun
    · exact fun h => hfile ⟨rfl, h⟩
  · have hname : logName place.2 ≠ place.2 := by simp [logName]
    have hother : logName place.2 ≠ journalName place.2 := by simp [logName, journalName]
    rw [firstByte?_eq, hlook place hplace,
      if_neg fun h => hname (List.cons.inj (List.append_cancel_left h)).1,
      if_neg fun h => hother (List.cons.inj (List.append_cancel_left h.1)).1, ← firstByte?_eq]
    exact hlog place hplace

/-- The file of the ledger is neither touched nor dropped. -/
theorem look_clearPlace {address : LedgerAddress} {found touched : Disk}
    {place? : Option (Location × Text)} {content : Content}
    (hfile : made.ledgerFile path address = (found, .ok (place?, content)))
    (htouch : found.touch (lockPath path) = .ok touched) (hplace : place? = some place)
    (isReadOnly : Bool) :
    (touched.clearPlace place? isReadOnly content).root.look (place.1 ++ [place.2]) =
      .file content := by
  obtain ⟨lock, -, -, hkeeps, -⟩ := touch_changes htouch
  rcases ledgerFile_ok hfile with ⟨-, hnone, -⟩ | ⟨other, -, hother, -, -, hlook⟩
  · cases hnone.symm.trans hplace
  · obtain rfl := Option.some.inj (hother.symm.trans hplace)
    have hclear : Changes ⟨fun _ => False, fun _ => False, IsLeftover other⟩ touched
        (touched.clearPlace place? isReadOnly content) :=
      clearPlace_changes (fun _ hsame => Option.some.inj (hplace.symm.trans hsame) ▸ fun _ => id)
        touched isReadOnly content
    exact hclear.look_file id (not_isLeftover_self other) (hkeeps _ _ hlook)

theorem openLedger_isOpen (h : disk.openLedger path = (start, .ok opened)) :
    start.IsOpen opened := by
  obtain ⟨address, made, found, touched, place?, content, -, -, hfile, htouch, hcontent, rfl⟩ :=
    openLedger_ok h
  obtain ⟨hrows, hplaces, hreadOnly, -⟩ := openContent_ok hcontent
  rw [← hplaces] at hfile
  rw [← hplaces, ← hreadOnly]
  have hseat := fun place (hplace : opened.place? = some place) =>
    look_clearPlace hfile htouch hplace opened.isReadOnly
  cases hwrite : opened.isReadOnly with
  | true =>
      rw [hwrite] at hseat
      have hsame : (touched.clearPlace opened.place? true content).storeLedger opened =
          touched.clearPlace opened.place? true content := by
        rw [storeLedger]
        split <;> simp [hwrite]
      rw [hsame]
      have hno : ¬opened.isReadOnly = false := by simp [hwrite]
      exact ⟨fun place hplace => ⟨content, hseat place hplace, hrows⟩,
        fun _ _ h => absurd h hno, fun _ _ h => absurd h hno, fun _ _ h => absurd h hno⟩
  | false =>
      rw [hwrite] at hseat
      refine storeLedger_isOpen (fun place hplace => ⟨content, hseat place hplace⟩) hwrite ?_
      intro place hplace
      rw [hplace]
      exact firstByte?_dropLeftovers _ _ _ _

/-- All that opening changes, step by step: the folders above the ledger, then its file, then the
lock file, then what is left beside the ledger file. -/
theorem openLedger_steps (h : disk.openLedger path = (start, .ok opened)) :
    ∃ made found touched lock, disk.createLedgerFolder path = (made, .ok ()) ∧
      Changes ⟨fun _ => False, fun location => ∃ place, opened.place? = some place ∧
        location = place.1 ++ [place.2], fun _ => False⟩ made found ∧
      touched.fileAt? (lockPath path) = some lock ∧
      Changes ⟨fun _ => False, fun location => location = lock ∧
        found.root.look location = .nothing, fun _ => False⟩ found touched ∧
      Changes ⟨fun _ => False, fun location => ∃ place, opened.place? = some place ∧
          location = place.1 ++ [place.2],
        fun location => ∃ place, opened.place? = some place ∧ IsLeftover place location⟩
        touched start := by
  obtain ⟨address, made, found, touched, place?, content, haddress, hmade, hfile, htouch, hcontent,
    rfl⟩ := openLedger_ok h
  obtain ⟨hrows, hplaces, hreadOnly, -⟩ := openContent_ok hcontent
  obtain ⟨lock, hlock, htouched, -, -⟩ := touch_changes htouch
  refine ⟨made, found, touched, lock, hmade, ?_, hlock, htouched, ?_⟩
  · have hfound : (made.ledgerFile path address).1 = found := congrArg Prod.fst hfile
    rw [← hfound]
    refine ledgerFile_changes fun place hmemory hplace => ?_
    rcases ledgerFile_ok hfile with ⟨hno, -⟩ | ⟨other, -, hother, hsame, -⟩
    · exact absurd hno hmemory
    · obtain rfl := Option.some.inj (hsame.symm.trans hplace)
      exact ⟨other, hplaces.trans hother, rfl⟩
  · have hseat := fun place (hplace : place? = some place) =>
      look_clearPlace hfile htouch hplace address.isReadOnly
    rw [← hplaces] at hseat ⊢
    refine (clearPlace_changes (fun place hplace location hleft => ?_) touched _ _).trans
      (storeLedger_changes
      (fun place hplace => ⟨content, hseat place hplace⟩)
      (fun place hplace => ⟨place, hplace, rfl⟩)
      fun place hplace location hleft => ⟨place, hplace, hleft⟩)
    exact ⟨place, hplace, hleft⟩

/-- All that opening changes, before and after the lock file is touched. -/
theorem openLedger_changes (h : disk.openLedger path = (start, .ok opened)) :
    ∃ made touched lock, disk.createLedgerFolder path = (made, .ok ()) ∧
      touched.fileAt? (lockPath path) = some lock ∧
      Changes (.opening opened.place? lock) made touched ∧
      Changes (.opening opened.place? lock) touched start := by
  obtain ⟨made, found, touched, lock, hmade, hfound, hlock, htouched, hstart⟩ := openLedger_steps h
  have hfile : Changes (.opening opened.place? lock) made found :=
    hfound.mono (fun _ => id) (fun _ => Or.inr) fun _ => False.elim
  have hlocked : Changes (.opening opened.place? lock) found touched :=
    htouched.mono (fun _ => id) (fun _ hwritten => Or.inl hwritten.1) fun _ => False.elim
  exact ⟨made, touched, lock, hmade, hlock, hfile.trans hlocked,
    hstart.mono (fun _ => id) (fun _ => Or.inr) fun _ => id⟩

theorem Changes.nothing_before (h : Changes scope old new) (hdrops : ¬scope.drops location)
    (hnothing : new.root.look location = .nothing) : old.root.look location = .nothing := by
  cases hlook : old.root.look location with
  | nothing => rfl
  | folder => cases hnothing.symm.trans ((h.keeps location).1 hlook)
  | link target => cases hnothing.symm.trans ((h.keeps location).2 target hlook)
  | file content =>
      obtain ⟨later, hfile⟩ := h.file_stays hdrops hlook
      cases hnothing.symm.trans hfile

/-- The lock file is made only where nothing stood before, unless it is a file beside the ledger
file, which is dropped again. -/
theorem openLedger_changesFrom (h : disk.openLedger path = (start, .ok opened)) :
    Changes (.openingFrom disk start path opened.place?) disk start := by
  obtain ⟨made, found, touched, lock, hmade, hfound, hlock, htouched, hstart⟩ := openLedger_steps h
  have hfolders : Changes ⟨fun _ => True, fun _ => False, fun _ => False⟩ disk
      (disk.createLedgerFolder path).1 := createLedgerFolder_changes (fun _ => trivial) disk path
  rw [hmade] at hfolders
  have hwrites : ∀ location, location = lock ∧ found.root.look location = .nothing →
      (Scope.openingFrom disk start path opened.place?).writes location := by
    rintro location ⟨rfl, hnothing⟩
    by_cases hleft : ∃ place, opened.place? = some place ∧ IsLeftover place location
    · obtain ⟨place, hplace, hbeside⟩ := hleft
      exact Or.inr ⟨place, hplace, Or.inr hbeside⟩
    · exact Or.inl ⟨hstart.fileAt? hleft hlock,
        hfolders.nothing_before id (hfound.nothing_before id hnothing)⟩
  have hseat : ∀ location, (∃ place, opened.place? = some place ∧ location = place.1 ++ [place.2]) →
      (Scope.openingFrom disk start path opened.place?).writes location :=
    fun location ⟨place, hplace, hsame⟩ => Or.inr ⟨place, hplace, Or.inl hsame⟩
  have hmakes : Changes (.openingFrom disk start path opened.place?) disk made :=
    hfolders.mono (fun _ => id) (fun _ => False.elim) fun _ => False.elim
  have hfile : Changes (.openingFrom disk start path opened.place?) made found :=
    hfound.mono (fun _ => False.elim) hseat fun _ => False.elim
  have hlocked : Changes (.openingFrom disk start path opened.place?) found touched :=
    htouched.mono (fun _ => False.elim) hwrites fun _ => False.elim
  have hstored : Changes (.openingFrom disk start path opened.place?) touched start :=
    hstart.mono (fun _ => False.elim) hseat fun _ => id
  exact ((hmakes.trans hfile).trans hlocked).trans hstored

/-- What opening may change, also if it fails, told from the disk before: folders are made, files are
written where nothing stands, and the files of the ledger are written and dropped. -/
def Scope.openingAt (disk : Disk) (place? : Option (Location × Text)) : Scope where
  makes _ := True
  writes location :=
    disk.root.look location = .nothing ∨ ∃ place, place? = some place ∧ IsLedgerFile place location
  drops location := ∃ place, place? = some place ∧ IsLeftover place location

theorem readLedger_changes {address : LedgerAddress} {place? : Option (Location × Text)}
    {content : Content}
    (hfile : made.ledgerFile path address = (disk, .ok (place?, content)))
    (hlock : ∀ location, disk.root.look location = .nothing → scope.writes location)
    (hwrites : ∀ place, place? = some place → scope.writes (place.1 ++ [place.2]))
    (hdrops : ∀ place, place? = some place → ∀ location, IsLeftover place location →
      scope.drops location) :
    Changes scope disk (disk.readLedger path address place? content).1 := by
  rw [readLedger]
  cases htouch : disk.touch (lockPath path) with
  | error fault => exact .refl
  | ok touched =>
      obtain ⟨lock, -, htouched, -, -⟩ := touch_changes htouch
      have hlocked : Changes scope disk touched :=
        htouched.mono (fun _ => False.elim) (fun location h => hlock location h.2) fun _ => False.elim
      have hcleared := hlocked.trans (clearPlace_changes hdrops touched address.isReadOnly content)
      dsimp only
      cases hcontent : openContent address place? content with
      | error fault => exact hcleared
      | ok opened =>
          obtain ⟨-, hplaces, -⟩ := openContent_ok hcontent
          have hseat : (touched.clearPlace place? address.isReadOnly content).HasSeat opened :=
            fun place hplace =>
              ⟨content, look_clearPlace hfile htouch (hplaces.symm.trans hplace) address.isReadOnly⟩
          refine hcleared.trans (storeLedger_changes hseat (fun place hplace => ?_)
            fun place hplace => ?_)
          · exact hwrites place (hplaces.symm.trans hplace)
          · exact hdrops place (hplaces.symm.trans hplace)

theorem openLedger_changesAt (disk : Disk) (path : Path) :
    Changes (.openingAt disk (disk.ledgerSeat? path)) disk (disk.openLedger path).1 := by
  generalize hseat : disk.ledgerSeat? path = place?
  have hfolders : Changes ⟨fun _ => True, fun _ => False, fun _ => False⟩ disk
      (disk.createLedgerFolder path).1 := createLedgerFolder_changes (fun _ => trivial) disk path
  have hmakes : Changes (.openingAt disk place?) disk (disk.createLedgerFolder path).1 :=
    createLedgerFolder_changes (fun _ => trivial) disk path
  rw [ledgerSeat?] at hseat
  rw [openLedger]
  generalize disk.createLedgerFolder path = step at hfolders hmakes hseat
  obtain ⟨made, result⟩ := step
  cases result with
  | error failure => exact hmakes
  | ok _ =>
      cases haddress : ledgerAddress path with
      | error fault => exact hmakes
      | ok address =>
          rw [haddress] at hseat
          dsimp only at hseat ⊢
          have hplaces : ∀ place, ¬address.isInMemory → made.ledgerPlace? address.path = some place →
              place? = some place := fun place hmemory hplace => by
            rw [← hseat, if_neg hmemory, hplace]
          have hfound : Changes ⟨fun _ => False, fun location => ∃ place, place? = some place ∧
              location = place.1 ++ [place.2], fun _ => False⟩ made
              (made.ledgerFile path address).1 := ledgerFile_changes fun place hmemory hplace =>
            ⟨place, hplaces place hmemory hplace, rfl⟩
          cases hfile : made.ledgerFile path address with
          | mk found result =>
              rw [hfile] at hfound
              have hheld : Changes (.openingAt disk place?) disk found :=
                hmakes.trans (hfound.mono (fun _ => False.elim)
                  (fun location ⟨place, hplace, hsame⟩ => Or.inr ⟨place, hplace, Or.inl hsame⟩)
                  fun _ => False.elim)
              cases result with
              | error fault => exact hheld
              | ok held =>
                  have hheldAt : ∀ place, held.1 = some place → place? = some place := by
                    intro place hplace
                    rcases ledgerFile_ok hfile with ⟨-, hnone, -⟩ | ⟨other, hmemory, hother, hsame, -⟩
                    · cases hnone.symm.trans hplace
                    · exact hplaces place hmemory (hsame.trans (hother.symm.trans hplace))
                  refine hheld.trans (readLedger_changes hfile (fun location hnothing => Or.inl ?_)
                    (fun place hplace => Or.inr ⟨place, hheldAt place hplace, Or.inl rfl⟩)
                    fun place hplace location hleft => ⟨place, hheldAt place hplace, hleft⟩)
                  exact hfolders.nothing_before id (hfound.nothing_before id hnothing)

theorem openLedger_any (h : disk.openLedger path = (start, .ok opened)) :
    Changes .any disk start := by
  have hchanges := openLedger_changesAt disk path
  rw [h] at hchanges
  exact hchanges.any

theorem IsOpen.storeLedger_eq (h : disk.IsOpen opened) : disk.storeLedger opened = disk :=
  Disk.storeLedger_eq fun place hplace hwrite =>
    ⟨h.stored place hplace hwrite, h.journal place hplace hwrite⟩

/-- The rows at a place stay when they are read, whether that succeeds or not. -/
theorem rowsAt?_readLedger {address : LedgerAddress} {content : Content}
    (hfile : made.ledgerFile path address = (disk, .ok (some place, content))) :
    (disk.readLedger path address (some place) content).1.rowsAt? place = disk.rowsAt? place := by
  rw [readLedger]
  cases htouch : disk.touch (lockPath path) with
  | error fault => rfl
  | ok touched =>
      obtain ⟨lock, -, -, -, htouched⟩ := touch_changes htouch
      have hlook := look_clearPlace hfile htouch rfl address.isReadOnly
      have hcleared : (touched.clearPlace (some place) address.isReadOnly content).rowsAt? place =
          disk.rowsAt? place := (rowsAt?_clearPlace _ _ _ _).trans (htouched place)
      dsimp only
      cases hcontent : openContent address (some place) content with
      | error fault => exact hcleared
      | ok opened =>
          obtain ⟨hheld, hplaces, -⟩ := openContent_ok hcontent
          have hseat : (touched.clearPlace (some place) address.isReadOnly content).HasSeat opened :=
            fun _ hsame => ⟨content, Option.some.inj (hplaces.symm.trans hsame) ▸ hlook⟩
          have hread : disk.rowsAt? place = some opened.ledger := by
            rw [← hcleared, rowsAt?, hlook]
            dsimp only
            rw [hheld]
            rfl
          dsimp only
          rw [rowsAt?_storeLedger hseat hplaces]
          split_ifs
          · exact hcleared
          · exact hread.symm

/-- The rows at the place of a ledger stay when it is opened, whether that succeeds or not. -/
theorem openLedger_rowsAt? (hplace : disk.ledgerSeat? path = some place) :
    (disk.openLedger path).1.rowsAt? place = disk.rowsAt? place := by
  rw [ledgerSeat?] at hplace
  cases haddress : ledgerAddress path with
  | error fault =>
      rw [haddress] at hplace
      cases hplace
  | ok address =>
      rw [haddress] at hplace
      dsimp only at hplace
      split_ifs at hplace with hmemory
      have hmade : Changes ⟨fun _ => True, fun _ => False, fun _ => False⟩ disk
          (disk.createLedgerFolder path).1 := createLedgerFolder_changes (fun _ => trivial) disk path
      have hrows : (disk.createLedgerFolder path).1.rowsAt? place = disk.rowsAt? place :=
        hmade.rowsAt?_eq id id
      rw [openLedger, haddress]
      generalize disk.createLedgerFolder path = made at hplace hrows
      obtain ⟨made, result⟩ := made
      cases result with
      | error failure => exact hrows
      | ok _ =>
          dsimp only at hplace hrows ⊢
          have hfound : (made.ledgerFile path address).1.rowsAt? place = disk.rowsAt? place :=
            rowsAt?_ledgerFile.trans hrows
          cases hfile : made.ledgerFile path address with
          | mk found result =>
              rw [hfile] at hfound
              cases result with
              | error fault => exact hfound
              | ok held =>
                  obtain ⟨place?, content⟩ := held
                  obtain rfl : place? = some place := by
                    rcases ledgerFile_ok hfile with ⟨hno, -⟩ | ⟨other, -, rfl, hsame, -⟩
                    · exact absurd hno hmemory
                    · rw [← hplace, hsame]
                  exact (rowsAt?_readLedger hfile).trans hfound

theorem openLedger_place (h : disk.openLedger path = (start, .ok opened)) :
    opened.place? = disk.ledgerSeat? path := by
  obtain ⟨address, made, found, touched, place?, content, haddress, hmade, hfile, -, hcontent, -⟩ :=
    openLedger_ok h
  obtain ⟨-, hplaces, -⟩ := openContent_ok hcontent
  rw [ledgerSeat?, haddress, hmade, hplaces]
  dsimp only
  rcases ledgerFile_ok hfile with ⟨hmemory, rfl, -⟩ | ⟨place, hmemory, rfl, hplace, -⟩
  · rw [if_pos hmemory]
  · rw [if_neg hmemory, hplace]

/-- The rows that are opened are those at the place, before and after. -/
theorem openLedger_rows (h : disk.openLedger path = (start, .ok opened))
    (hplace : disk.ledgerSeat? path = some place) :
    disk.rowsAt? place = some opened.ledger ∧ start.rowsAt? place = some opened.ledger := by
  have hstart : start.rowsAt? place = some opened.ledger :=
    (openLedger_isOpen h).rowsAt?_eq ((openLedger_place h).trans hplace)
  have hrows := openLedger_rowsAt? hplace
  rw [h] at hrows
  exact ⟨hrows.symm.trans hstart, hstart⟩

end Disk

end SampleHarvest
