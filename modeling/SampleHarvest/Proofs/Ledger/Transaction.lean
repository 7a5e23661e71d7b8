import SampleHarvest.Proofs.Ledger.Answers

/-!
# Recordings row by row

A recording is one transaction. It deletes the release that is replaced, adds the row of the new one
and then the rows of its files, one after the other. A path that came before is passed over, and the
first one that has an owner ends the work half done. The rows that it leaves are then given up for
those from before the transaction.

This comes to the same as looking at all files before the first row is touched.
-/

namespace SampleHarvest

namespace Ledger

/-- Does some work on the rows. If it fails, the rows are again those from before. -/
def transact {α : Type} (ledger : Ledger) (work : Ledger → Ledger × Except Clash α) :
    Ledger × Except Clash α :=
  match work ledger with
  | (rows, .ok result) => (rows, .ok result)
  | (_, .error clash) => (ledger, .error clash)

/-- The rows with the row of a new release at the end. -/
def addRelease (rows : Ledger) (recording : Recording) : Ledger :=
  { rows with releases := rows.releases ++ [rowOf rows.nextReleaseId recording] }

/-- The rows with the row of a new file at the end. -/
def addFile (rows : Ledger) (releaseId : Nat) (path : Path) : Ledger :=
  { rows with files := rows.files ++ [⟨nextId (rows.files.map FileRow.id), path, releaseId⟩] }

/-- Adds files one after the other, but for those that were seen, until one has an owner. -/
def addFiles (releaseId : Nat) (seen : List Path) (rows : Ledger) :
    List Path → Ledger × Except Clash Unit
  | [] => (rows, .ok ())
  | path :: paths =>
    if path ∈ seen then addFiles releaseId seen rows paths
    else
      match rows.owner? path with
      | some row => (rows, .error ⟨path, row.name, row.language⟩)
      | none => addFiles releaseId (path :: seen) (rows.addFile releaseId path) paths

theorem addFiles_cons (releaseId : Nat) (seen : List Path) (rows : Ledger) (path : Path)
    (paths : List Path) :
    addFiles releaseId seen rows (path :: paths) =
      if path ∈ seen then addFiles releaseId seen rows paths
      else
        match rows.owner? path with
        | some row => (rows, .error ⟨path, row.name, row.language⟩)
        | none => addFiles releaseId (path :: seen) (rows.addFile releaseId path) paths :=
  rfl

/-- Adds a release and its files. -/
def addRows (rows : Ledger) (recording : Recording) (outcome : Outcome) :
    Ledger × Except Clash Outcome :=
  let (rows, result) :=
    (rows.addRelease recording).addFiles rows.nextReleaseId [] recording.files
  (rows, result.map fun () => outcome)

def recordRows (recording : Recording) (policy : Policy) (rows : Ledger) :
    Ledger × Except Clash Outcome :=
  match rows.find? recording.name recording.language, policy with
  | none, _ => rows.addRows recording .written
  | some _, .reject => (rows, .ok .duplicate)
  | some row, .replace => (rows.erase row.id).addRows recording .replaced

variable {ledger : Ledger}

/-! ### Adding the files -/

theorem nextId_concat (ids : List Nat) : nextId (ids ++ [nextId ids]) = nextId ids + 1 := by
  unfold nextId
  rw [List.foldl_append, List.foldl_cons, List.foldl_nil]
  omega

/-- The files that are numbered after some others leave the next number to the one that follows. -/
theorem nextId_fileRows (releaseId : Nat) (ids : List Nat) (paths : List Path) :
    nextId (ids ++ (fileRows releaseId (nextId ids) paths).map FileRow.id) =
      nextId ids + paths.length := by
  induction paths generalizing ids with
  | nil => simp [fileRows]
  | cons path paths ih =>
      have hrest := ih (ids ++ [nextId ids])
      rw [nextId_concat, List.append_assoc] at hrest
      rw [fileRows, List.map_cons, List.length_cons]
      show nextId (ids ++ ([nextId ids] ++ _)) = _
      rw [hrest]
      omega

theorem fileRows_concat (releaseId first : Nat) (paths : List Path) (path : Path) :
    fileRows releaseId first (paths ++ [path]) =
      fileRows releaseId first paths ++ [⟨first + paths.length, path, releaseId⟩] := by
  induction paths generalizing first with
  | nil => rfl
  | cons other paths ih =>
      rw [List.cons_append, fileRows, fileRows, ih, List.length_cons, List.cons_append]
      simp only [Nat.add_assoc, Nat.add_comm 1]

/-- The rows with a new release and these files of it. -/
def withRelease (ledger : Ledger) (row : ReleaseRow) (added : List Path) : Ledger where
  releases := ledger.releases ++ [row]
  files := ledger.files ++ fileRows row.id (nextId (ledger.files.map FileRow.id)) added

theorem addFile_withRelease (ledger : Ledger) (row : ReleaseRow) (added : List Path) (path : Path) :
    (ledger.withRelease row added).addFile row.id path = ledger.withRelease row (added ++ [path]) := by
  unfold addFile withRelease
  rw [List.map_append, nextId_fileRows, fileRows_concat, List.append_assoc]

/-- While files are added, a path that is not among them has the owner that it had before. -/
theorem IsSound.owner?_withRelease (h : ledger.IsSound) (row : ReleaseRow) {added : List Path}
    {path : Path} (hpath : path ∉ added) :
    (ledger.withRelease row added).owner? path = ledger.owner? path := by
  have hnew : (fileRows row.id (nextId (ledger.files.map FileRow.id)) added).find?
      (fun file => file.path = path) = none := by
    apply List.find?_eq_none.mpr
    intro file hfile heq
    exact hpath (of_decide_eq_true heq ▸ (mem_fileRows hfile).2.2)
  unfold owner? withRelease
  rw [List.find?_append, hnew, Option.or_none]
  cases hfile : ledger.files.find? fun file => file.path = path with
  | none => rfl
  | some file =>
      obtain ⟨owner, howner, hid⟩ := h.owned file (List.mem_of_find?_eq_some hfile)
      have hsome : (ledger.releases.find? fun other => other.id = file.releaseId).isSome :=
        List.find?_isSome.mpr ⟨owner, howner, decide_eq_true hid⟩
      show (ledger.releases ++ [row]).find? _ = ledger.releases.find? _
      rw [List.find?_append, Option.or_of_isSome hsome]

/-- Files that nobody owns are added, each once; otherwise the first clash ends the work. -/
theorem IsSound.addFiles_withRelease (h : ledger.IsSound) (row : ReleaseRow)
    {seen added : List Path} (hseen : ∀ path, path ∈ seen ↔ path ∈ added)
    (hadded : ∀ path ∈ added, ledger.owner? path = none) (paths : List Path) :
    match ledger.clash? paths with
    | some clash =>
      ((ledger.withRelease row added).addFiles row.id seen paths).2 = .error clash
    | none =>
      (ledger.withRelease row added).addFiles row.id seen paths =
        (ledger.withRelease row
          (paths.foldl (fun added t => if t ∈ added then added else added ++ [t]) added),
          .ok ()) := by
  induction paths generalizing seen added with
  | nil => rfl
  | cons path paths ih =>
      rw [addFiles_cons, List.foldl_cons]
      by_cases hmem : path ∈ added
      · -- A path that comes again has no owner, so it is not the first clash.
        have hclash : ledger.clash? (path :: paths) = ledger.clash? paths := by
          rw [clash?, List.findSome?_cons, hadded path hmem]
          rfl
        rw [hclash, if_pos ((hseen path).mpr hmem), if_pos hmem]
        exact ih hseen hadded
      · rw [if_neg (mt (hseen path).mp hmem), if_neg hmem, h.owner?_withRelease row hmem]
        cases howner : ledger.owner? path with
        | some owner =>
            rw [clash?, List.findSome?_cons, howner]
            rfl
        | none =>
            have hclash : ledger.clash? (path :: paths) = ledger.clash? paths := by
              rw [clash?, List.findSome?_cons, howner]
              rfl
            rw [hclash]
            dsimp only
            rw [addFile_withRelease]
            apply ih
            · intro other
              rw [List.mem_cons, List.mem_append, List.mem_singleton, hseen other, or_comm]
            · intro other hother
              rcases List.mem_append.mp hother with hother | hother
              · exact hadded other hother
              · rw [List.mem_singleton.mp hother]
                exact howner

/-! ### The whole recording -/

/-- The files of a release that is added are the whole release. -/
theorem withRelease_distinct (ledger : Ledger) (recording : Recording) :
    ledger.withRelease (rowOf ledger.nextReleaseId recording) (Text.distinct recording.files) =
      ledger.insert recording :=
  rfl

theorem addRelease_eq (ledger : Ledger) (recording : Recording) :
    ledger.addRelease recording =
      ledger.withRelease (rowOf ledger.nextReleaseId recording) [] := by
  unfold addRelease withRelease
  rw [fileRows, List.append_nil]

/-- A release is added with all its files, or the first clash ends the work. -/
theorem IsSound.addRows_eq (h : ledger.IsSound) (recording : Recording) (outcome : Outcome) :
    match ledger.clash? (Text.distinct recording.files) with
    | some clash => (ledger.addRows recording outcome).2 = .error clash
    | none => ledger.addRows recording outcome = (ledger.insert recording, .ok outcome) := by
  have hnone : ∀ path : Path, path ∈ ([] : List Path) ↔ path ∈ ([] : List Path) := fun _ => Iff.rfl
  have hfiles := h.addFiles_withRelease (rowOf ledger.nextReleaseId recording) hnone nofun
    recording.files
  have hclash : ledger.clash? (Text.distinct recording.files) = ledger.clash? recording.files :=
    findSome?_distinct _ _
  rw [← addRelease_eq] at hfiles
  rw [hclash]
  unfold addRows
  cases hfound : ledger.clash? recording.files with
  | some clash =>
      rw [hfound] at hfiles
      show Except.map _ (addFiles ledger.nextReleaseId [] _ recording.files).2 = _
      change (addFiles ledger.nextReleaseId [] _ recording.files).2 = _ at hfiles
      rw [hfiles]
      rfl
  | none =>
      rw [hfound] at hfiles
      change addFiles ledger.nextReleaseId [] _ recording.files = _ at hfiles
      dsimp only
      rw [hfiles, ← withRelease_distinct]
      rfl

theorem IsSound.transact_addRows (h : ledger.IsSound) (before : Ledger) (recording : Recording)
    (outcome : Outcome) :
    before.transact (fun _ => ledger.addRows recording outcome) =
      match ledger.insertFresh recording outcome with
      | .ok (outcome, next) => (next, .ok outcome)
      | .error clash => (before, .error clash) := by
  have hrows := h.addRows_eq recording outcome
  unfold transact Ledger.insertFresh
  cases hclash : ledger.clash? (Text.distinct recording.files) with
  | some clash =>
      rw [hclash] at hrows
      generalize ledger.addRows recording outcome = work at hrows
      obtain ⟨rows, result⟩ := work
      obtain rfl : result = .error clash := hrows
      rfl
  | none =>
      rw [hclash] at hrows
      rw [hrows]

/-- Row by row and as a transaction, a recording gives the same answer and the same rows as all at
once. -/
theorem IsSound.transact_recordRows (h : ledger.IsSound) (recording : Recording)
    (policy : Policy) :
    ledger.transact (recordRows recording policy) =
      match ledger.record recording policy with
      | .ok (outcome, next) => (next, .ok outcome)
      | .error clash => (ledger, .error clash) := by
  unfold Ledger.record
  unfold transact recordRows
  cases hfind : ledger.find? recording.name recording.language with
  | none => exact h.transact_addRows ledger recording .written
  | some row =>
      cases policy with
      | reject => rfl
      | replace => exact (h.erase row.id).transact_addRows ledger recording .replaced

end Ledger

end SampleHarvest
