import SampleHarvest.Proofs.Harvest.Placement

/-!
# What a publication leaves

A publication that fails has written the artifacts before the failure, and nothing else below the
output root. What was written can be read until it is written over, as long as nobody else touches
the output root.
-/

namespace SampleHarvest

namespace Disk

variable {disk disk' : Disk} {root : Path} {written : List Artifact}

/-! ### Reading what was written -/

/-- The path of an artifact that was written leads to its names below the output root, to a file
with the last document of these names. -/
theorem Publishes.locate {base : Location} (h : disk.Publishes root written base)
    {artifact : Artifact} (hmem : artifact ∈ written) :
    ∃ last, lastNamed? written artifact.names = some last ∧
      disk.locate true (Path.join root artifact.path) =
        .ok (.present (base ++ artifact.names)
          (.file (.bytes (Utf8.encode last.content)))) := by
  obtain ⟨last, hlast⟩ := Option.isSome_iff_exists.mp (lastNamed?_isSome hmem)
  refine ⟨last, hlast, ?_⟩
  obtain ⟨hparts, hnames⟩ := h.paths artifact hmem
  have hcontained := h.contained artifact hmem
  have hrelative : ¬Path.isAbsolute artifact.path := Target.not_isAbsolute hcontained
  have hfile := h.files _ last hlast
  obtain ⟨left, hwalk⟩ := h.leads.walk_append (Text.splitOn '/' artifact.path)
  rw [← Path.splitOn_join hrelative, ← start_join hrelative] at hwalk
  rw [Artifact.names] at hnames hfile ⊢
  obtain ⟨front, fileName, hsplit, hfileName⟩ := Target.exists_fileName hcontained
  change Text.splitOn '/' artifact.path = _ at hsplit
  have hfound : walk disk.root true left base (Text.splitOn '/' artifact.path) =
      .ok (.present (base ++ namesOf (Text.splitOn '/' artifact.path))
        (.file (.bytes (Utf8.encode last.content)))) := by
    rw [hsplit] at hnames hfile ⊢
    exact walk_to_file hnames hfileName hfile
  rw [Disk.locate, hparts]
  exact hwalk.trans hfound

theorem readContent_of_locate {path : Path} {location : Location} {content : Content}
    (h : disk.locate true path = .ok (.present location (.file content))) :
    disk.readContent path = .ok content := by
  rw [Disk.readContent, node, h]

/-- The file of an artifact that was written holds the last document of its names. -/
theorem HasWritten.readContent (h : disk.HasWritten root written) {artifact : Artifact}
    (hmem : artifact ∈ written) :
    ∃ last, lastNamed? written artifact.names = some last ∧
      disk.readContent (Path.join root artifact.path) =
        .ok (.bytes (Utf8.encode last.content)) := by
  rcases h with ⟨rfl, -⟩ | ⟨base, hpublishes⟩
  · cases hmem
  obtain ⟨last, hlast, hlocate⟩ := hpublishes.locate hmem
  exact ⟨last, hlast, readContent_of_locate hlocate⟩

/-! ### Changes that spare the documents -/

variable {scope : Scope} {base : Location} {back : List Text}

theorem IsAbove.changes (h : disk.IsAbove root base back) (hchanges : Changes scope disk disk') :
    disk'.IsAbove root base back := by
  obtain ⟨front, hfront, hleads⟩ := h.leads
  refine ⟨⟨front, hfront, ?_⟩, h.up, fun below target hlink =>
    h.links below target (hchanges.link_before hlink)⟩
  rw [hchanges.start_eq]
  exact hleads.keeps hchanges.keeps

/-- What was written stays if no document is written over or dropped. -/
theorem HasWritten.changes (h : disk.HasWritten root written) (hchanges : Changes scope disk disk')
    (hspares : ∀ location, disk.HasDocumentAt root location →
      ¬scope.writes location ∧ ¬scope.drops location) : disk'.HasWritten root written := by
  rcases h with ⟨hempty, base, back, habove⟩ | ⟨base, hpublishes⟩
  · exact Or.inl ⟨hempty, base, back, habove.changes hchanges⟩
  refine Or.inr ⟨base, ?_, fun below target hlink =>
    hpublishes.links below target (hchanges.link_before hlink), fun names last hlast => ?_,
    hpublishes.contained, hpublishes.paths⟩
  · rw [hchanges.start_eq]
    exact hpublishes.leads.keeps hchanges.keeps
  · obtain ⟨rfl, front, back, hwritten, -⟩ := lastNamed?_eq_some hlast
    have hmem : last ∈ written := hwritten ▸ List.mem_append_right front List.mem_cons_self
    obtain ⟨_, -, hlocate⟩ := hpublishes.locate hmem
    have hdocument : disk.HasDocumentAt root (base ++ last.names) := by
      refine ⟨last.target, hpublishes.contained last hmem, ?_⟩
      rw [fileAt?, show Path.join root last.target.documentPath = Path.join root last.path from rfl,
        hlocate]
    obtain ⟨hwrites, hdrops⟩ := hspares _ hdocument
    exact hchanges.look_file hwrites hdrops (hpublishes.files _ last hlast)

/-! ### Writing the artifacts -/

/-- The artifacts that are written before the first write that fails. -/
def published (disk : Disk) (root : Path) : List Artifact → List Artifact
  | [] => []
  | artifact :: artifacts =>
    match disk.publish root artifact with
    | (disk, .ok ()) => artifact :: disk.published root artifacts
    | (_, .error _) => []

theorem HasWritten.publish (h : disk.HasWritten root written) {artifact : Artifact}
    (hcontained : artifact.target.isContained) :
    (disk.publish root artifact).1.HasWritten root
      (written ++ if (disk.publish root artifact).2.isOk then [artifact] else []) := by
  rw [Disk.publish]
  have hmade : Changes ⟨fun _ => True, fun _ => False, fun _ => False⟩ disk
      (disk.createFolders ((Path.parent? (Path.join root artifact.path)).getD [])).1 :=
    disk.createFolders_changes (fun _ => trivial) _
  have hfolders := h.changes hmade fun _ _ => ⟨id, id⟩
  generalize disk.createFolders ((Path.parent? (Path.join root artifact.path)).getD []) = made
    at hfolders
  obtain ⟨made, result⟩ := made
  cases result with
  | error fault => simpa [Except.isOk, Except.toBool] using hfolders
  | ok _ =>
      cases hwrite : made.writeText (Path.join root artifact.path) artifact.content with
      | error fault => simpa [hwrite, Except.isOk, Except.toBool] using hfolders
      | ok disk' =>
          simpa [hwrite, Except.isOk, Except.toBool] using hfolders.write hcontained hwrite

/-- After a publication the output root holds what was written before the first failure. -/
theorem HasWritten.publishAll (h : disk.HasWritten root written) {artifacts : List Artifact}
    (hcontained : ∀ artifact ∈ artifacts, artifact.target.isContained) :
    (disk.publishAll root artifacts).1.HasWritten root
      (written ++ disk.published root artifacts) := by
  induction artifacts generalizing disk written with
  | nil =>
      rw [published, List.append_nil]
      exact h
  | cons artifact artifacts ih =>
      have hpublish := h.publish (hcontained artifact List.mem_cons_self)
      rw [Disk.publishAll, published]
      generalize disk.publish root artifact = made at hpublish
      obtain ⟨made, result⟩ := made
      cases result with
      | error fault => exact hpublish
      | ok _ =>
          have hrest := ih hpublish fun other hother =>
            hcontained other (List.mem_cons_of_mem _ hother)
          rw [List.append_assoc] at hrest
          dsimp only at hrest ⊢
          generalize made.publishAll root artifacts = last at hrest
          obtain ⟨last, result⟩ := last
          cases result <;> exact hrest

/-- A publication that succeeds writes all artifacts and gives their paths. -/
theorem publishAll_ok {artifacts : List Artifact} {paths : List Path}
    (h : (disk.publishAll root artifacts).2 = .ok paths) :
    paths = artifacts.map Artifact.path ∧ disk.published root artifacts = artifacts := by
  induction artifacts generalizing disk paths with
  | nil =>
      cases h
      exact ⟨rfl, rfl⟩
  | cons artifact artifacts ih =>
      rw [Disk.publishAll] at h
      rw [published]
      generalize disk.publish root artifact = made at h ⊢
      obtain ⟨made, result⟩ := made
      cases result with
      | error fault => cases h
      | ok _ =>
          dsimp only at h ⊢
          cases hrest : made.publishAll root artifacts with
          | mk last result =>
              rw [hrest] at h
              cases result with
              | error fault => cases h
              | ok others =>
                  cases h
                  have hothers : (made.publishAll root artifacts).2 = .ok others := by rw [hrest]
                  obtain ⟨rfl, hall⟩ := ih hothers
                  exact ⟨rfl, by rw [hall]⟩

/-! ### Changes from outside -/

/-- The entries of the folder that an output root leads to. -/
def outputEntries? (disk : Disk) (root : Path) : Option (List (Text × Node)) :=
  match walk disk.root true maxLinks (disk.start root) (Path.baseParts root) with
  | .ok (.present _ (.folder entries)) => some entries
  | _ => none

theorem outputEntries?_eq_some_iff {entries : List (Text × Node)} :
    disk.outputEntries? root = some entries ↔
      ∃ base, LeadsTo disk.root base maxLinks (disk.start root) (Path.baseParts root) ∧
        disk.root.get? base = some (.folder entries) := by
  rw [outputEntries?]
  constructor
  · intro h
    split at h
    · next base found hwalk =>
        cases h
        exact ⟨base, leadsTo_of_walk hwalk, get?_of_walk hwalk⟩
    · cases h
  · rintro ⟨base, hleads, hget⟩
    obtain ⟨left, hleft⟩ := hleads.walk_append []
    have hsteps : steps disk.root true base [] = .ok (.arrived base (.folder entries)) := by
      rw [steps_nil, hget]
    rw [List.append_nil, walk_arrived hsteps] at hleft
    rw [hleft]

/-- The output root is left alone: the folder that it leads to has the same entries, and as long as
it leads to none it stays fresh. A ledger that is kept in the output root changes the entries. -/
structure LeavesOutput (disk disk' : Disk) (root : Path) : Prop where
  entries : disk'.outputEntries? root = disk.outputEntries? root
  /-- Nothing stands where the root would be made. -/
  fresh : disk.outputEntries? root = none → disk'.IsFresh root

theorem IsAbove.base_eq {base location : Location} {back : List Text}
    (h : disk.IsAbove root base back)
    (hleads : LeadsTo disk.root location maxLinks (disk.start root) (Path.baseParts root)) :
    location = base ++ namesOf back := by
  obtain ⟨front, hfront, hfolder⟩ := h.leads
  obtain ⟨entries, hwalk⟩ := hleads.walk
  obtain ⟨left, hleft⟩ := hfolder.walk_append back
  rw [hfront, hleft] at hwalk
  obtain ⟨hends, -⟩ := (arrives_of_walk hwalk).endsAt h.up hfolder.look
    (fun front hne hprefix link => by
      rw [← List.append_nil (namesOf back)] at hprefix
      obtain ⟨below, rfl⟩ := prefix_of_prefix_names hne hprefix
      rw [← List.append_assoc]
      exact h.links below link)
  generalize hlocation : base ++ namesOf back = other at hends
  cases hends with
  | present => rfl

theorem HasWritten.leavesOutput (h : disk.HasWritten root written)
    (hleaves : LeavesOutput disk disk' root) : disk'.HasWritten root written := by
  have hentries := hleaves.entries
  cases hfolder : disk.outputEntries? root with
  | none =>
      rcases h with ⟨hempty, -⟩ | ⟨base, hpublishes⟩
      · obtain ⟨base, back, habove, -⟩ := hleaves.fresh hfolder
        exact Or.inl ⟨hempty, base, back, habove⟩
      · obtain ⟨entries, hget⟩ := Node.look_eq_folder_iff.mp hpublishes.leads.look
        rw [outputEntries?_eq_some_iff.mpr ⟨base, hpublishes.leads, hget⟩] at hfolder
        cases hfolder
  | some entries =>
      rw [hfolder] at hentries
      obtain ⟨location, hleads, hget⟩ := outputEntries?_eq_some_iff.mp hfolder
      obtain ⟨location', hleads', hget'⟩ := outputEntries?_eq_some_iff.mp hentries
      have hsame : ∀ below, disk'.root.look (location' ++ below) =
          disk.root.look (location ++ below) := fun below =>
        (Node.look_append hget').trans (Node.look_append hget).symm
      rcases h with ⟨hempty, base, back, habove⟩ | ⟨base, hpublishes⟩
      · obtain rfl := habove.base_eq hleads
        refine Or.inl ⟨hempty, location', [], ⟨⟨_, (List.append_nil _).symm, hleads'⟩,
          List.not_mem_nil, fun below link => ?_⟩⟩
        rw [namesOf, List.filter_nil, List.take_nil, List.append_nil, hsame]
        obtain ⟨rest, hrest⟩ := namesOf_take_append back below
        rw [List.append_assoc, hrest, ← List.append_assoc]
        exact habove.links rest link
      · obtain rfl : location = base := by
          rw [hpublishes.isAbove.base_eq hleads, namesOf, List.filter_nil, List.append_nil]
        refine Or.inr ⟨location', hleads', fun below link => ?_, fun names last hlast => ?_,
          hpublishes.contained, hpublishes.paths⟩
        · rw [hsame]
          exact hpublishes.links below link
        · rw [hsame]
          exact hpublishes.files names last hlast

end Disk

end SampleHarvest
