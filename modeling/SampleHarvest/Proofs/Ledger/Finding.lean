import SampleHarvest.Proofs.Ledger.Opening
import SampleHarvest.Proofs.Path.Parent

/-!
# Ledgers that are found again

Between two runs files come and go, but folders and links stay. A ledger with a plain path is found
again by the folders above it and its name. An address with a scheme names folders of its own, which
were not made when the ledger was opened, and perhaps one more file; and a link may lead anywhere.
-/

namespace SampleHarvest

namespace Disk

variable {root new : Node} {disk made start later : Disk} {base here location : Location}
  {path : Path} {front idle rest : List Text} {last part : Text} {place : Location × Text}
  {opened : OpenLedger} {scope : Scope} {links : Nat}

/-! ### The parts in front of the last one -/

/-- These parts lead to a folder, or they are idle and stay where they are, whatever stands there. -/
def Reaches (root : Node) (base : Location) (links : Nat) (here : Location) (parts : List Text) :
    Prop :=
  LeadsTo root base links here parts ∨ base = here ∧ ∀ part ∈ parts, Path.isIdlePart part

theorem Reaches.keeps (hkeeps : Keeps root new) (h : Reaches root base links here front) :
    Reaches new base links here front :=
  h.imp_left fun hleads => hleads.keeps hkeeps

theorem steps_all_idle {follows : Bool} (h : ∀ part ∈ front, Path.isIdlePart part) :
    steps root follows here (front ++ rest) = steps root follows here rest := by
  induction front with
  | nil => rfl
  | cons part front ih =>
      obtain ⟨hpart, hfront⟩ := List.forall_mem_cons.mp h
      rw [List.cons_append, steps_idle hpart, ih hfront]

/-- What is behind the parts is followed from where they lead. -/
theorem Reaches.walk_append (h : Reaches root base links here front) (back : List Text) :
    ∃ left, walk root true links here (front ++ back) = walk root true left base back := by
  rcases h with hleads | ⟨rfl, hidle⟩
  · exact hleads.walk_append back
  · exact ⟨links, walk_of_steps (steps_all_idle hidle)⟩

theorem leadsTo_all_idle (hlook : root.look base = .folder)
    (h : ∀ part ∈ idle, Path.isIdlePart part) (links : Nat) : LeadsTo root base links base idle := by
  induction idle with
  | nil => exact .done hlook
  | cons part idle ih =>
      obtain ⟨hpart, hidle⟩ := List.forall_mem_cons.mp h
      exact .idle hpart (ih hidle)

/-- Once the folders above a ledger are made, the parts in front lead to one. -/
theorem reaches_front (hmade : disk.createLedgerFolder path = (made, .ok ()))
    (hends : path.EndsIn front last idle) :
    ∃ base, Reaches made.root base maxLinks (made.start path) front := by
  by_cases hidle : ∀ part ∈ front, Path.isIdlePart part
  · exact ⟨_, Or.inr ⟨rfl, hidle⟩⟩
  obtain ⟨above, hparent, hparts, habsolute⟩ := hends.parent? hidle
  have hfolders : disk.createFolders above = (made, .ok ()) := by
    rw [createLedgerFolder, hparent] at hmade
    dsimp only at hmade
    cases hfolders : disk.createFolders above with
    | mk between result =>
        rw [hfolders] at hmade
        cases result <;> cases hmade
        rfl
  have hfolder : made.hasFolder above := by
    rw [createFolders, folderPaths] at hfolders
    cases htop : Path.parent? above with
    | none =>
        have hall := Path.all_idle_of_parent?_eq_none htop
        rw [hparts] at hall
        exact absurd (Path.all_idle_of_trimParts hall) hidle
    | some higher =>
        rw [htop] at hfolders
        exact hasFolder_of_createChain hfolders
  obtain ⟨-, base, hleads⟩ := hasFolder_iff.mp hfolder
  rw [hparts, start, habsolute] at hleads
  obtain ⟨idle', hfront, hidle'⟩ : ∃ idle', front = Path.trimParts front ++ idle' ∧
      ∀ part ∈ idle', Path.isIdlePart part := by
    cases front with
    | nil => exact absurd (List.forall_mem_nil _) hidle
    | cons first rest =>
        obtain ⟨idle', hfront, hidle', -⟩ := Path.trimParts_append first rest
        exact ⟨idle', hfront, hidle'⟩
  refine ⟨base, Or.inl ?_⟩
  rw [hfront]
  exact hleads.append (leadsTo_all_idle hleads.look hidle')

/-! ### Links at the end -/

def isLink (disk : Disk) (path : Path) : Bool :=
  match walk disk.root false maxLinks (disk.start path)
      (Path.trimParts (Text.splitOn '/' path)) with
  | .ok (.present _ (.link _)) => true
  | _ => false

theorem not_isLink (hlinks : disk.root.HasNoLinks) (path : Path) : ¬disk.isLink path := by
  rw [isLink]
  split
  · next location target hwalk =>
      exact absurd (Node.look_eq_link_iff.mpr (arrives_of_walk hwalk).get?) (hlinks location target)
  · exact Bool.false_ne_true

theorem isLink_of_look {target : Path} (hends : path.EndsIn front last idle) (hlast : IsName last)
    (hreaches : Reaches disk.root base maxLinks (disk.start path) front)
    (hlook : disk.root.look (base ++ [last]) = .link target) : disk.isLink path := by
  have hback : ∀ left, Arrives disk.root false left base [last]
      (.present (base ++ [last]) (.link target)) := fun left => .stop hlast hlook rfl rfl
  have hwalk : walk disk.root false maxLinks (disk.start path) (front ++ [last]) =
      .ok (.present (base ++ [last]) (.link target)) := by
    rcases hreaches with hleads | ⟨hbase, hidle⟩
    · refine (hleads.arrives_append (fun hall => hlast.1 ?_) hback).walk
      rw [Path.isIdlePart, List.all_eq_true.mp hall last (List.mem_singleton_self last), Bool.true_or]
    · rw [walk_of_steps (steps_all_idle hidle), ← hbase]
      exact (hback maxLinks).walk
  rw [isLink, hends.trimmed, hwalk]

/-- The file that a path leads to has the name of its last part, unless this is a link. -/
theorem fileAt?_of_reaches (hends : path.EndsIn front last []) (hidle : ¬Path.isIdlePart last)
    (hup : last ≠ "..") (hreaches : Reaches disk.root base maxLinks (disk.start path) front)
    (hfile : disk.fileAt? path = some location) :
    IsName last ∧
      (location = base ++ [last] ∨ ∃ target, disk.root.look (base ++ [last]) = .link target) := by
  obtain ⟨-, content, harrives⟩ := fileAt?_eq_some_iff.mp hfile
  rw [hends.parts] at harrives
  obtain ⟨left, hleft⟩ := hreaches.walk_append [last]
  cases arrives_of_walk (hleft.symm.trans harrives.walk) with
  | idle hyes => exact absurd hyes hidle
  | up => exact absurd rfl hup
  | file hname => exact ⟨hname, Or.inl rfl⟩
  | link hname hlook => exact ⟨hname, Or.inr ⟨_, hlook⟩⟩
  | down _ hlook hrest =>
      cases hrest with
      | here hget => cases hlook.symm.trans (Node.look_eq_file_iff.mpr hget)

/-! ### The lock file -/

/-- The names of lock files and of files that are left beside a ledger file end differently. -/
theorem not_isLeftover_lock (base : Location) (stem : Text) (place : Location × Text) :
    ¬IsLeftover place (base ++ [stem ++ "." ++ "lock"]) := by
  rintro ⟨name, hname, hsame⟩
  have hend : (stem ++ "." ++ "lock").getLast? = some 'k' := by simp
  rw [(List.cons.inj (List.append_inj' hsame rfl).2).1] at hend
  simp only [List.mem_cons, List.not_mem_nil, or_false] at hname
  rcases hname with rfl | rfl | rfl <;> simp [journalName, logName, logIndexName] at hend

/-- The lock file of a ledger is still there, unless it is a link. -/
theorem lock_stays (h : disk.openLedger path = (start, .ok opened))
    (hname : (Path.stem? path).isSome) (hplace : opened.place? = some place)
    (hchanges : Changes scope start later)
    (hdrops : ∀ location, scope.drops location → IsLeftover place location)
    (hlink : ¬later.isLink (lockPath path)) : (later.fileAt? (lockPath path)).isSome := by
  obtain ⟨made, touched, lock, hmade, hlock, htouched, hstart⟩ := openLedger_changes h
  obtain ⟨stem, hstem⟩ := Option.isSome_iff_exists.mp hname
  obtain ⟨front, last, idle, hends⟩ := Path.exists_endsIn path
  obtain ⟨hlockEnds, habsolute⟩ : (lockPath path).EndsIn front (stem ++ "." ++ "lock") [] ∧
      Path.isAbsolute (lockPath path) = Path.isAbsolute path :=
    hends.withExtension hstem (by decide) nofun
  have hcounts : ¬Path.isIdlePart (stem ++ "." ++ "lock") := by
    cases stem <;> simp [Path.isIdlePart]
  obtain ⟨base, hreaches⟩ := reaches_front hmade hends
  have hkeeps : Keeps touched.root later.root := hstart.keeps.trans hchanges.keeps
  have hlater : later.start (lockPath path) = touched.start (lockPath path) :=
    (hchanges.start_eq _).trans (hstart.start_eq _)
  have hreached : Reaches touched.root base maxLinks (touched.start (lockPath path)) front := by
    have hstarts : touched.start (lockPath path) = made.start path := by
      rw [Disk.start, Disk.start, htouched.workingFolder_eq, habsolute]
    rw [hstarts]
    exact hreaches.keeps htouched.keeps
  have hup : stem ++ "." ++ "lock" ≠ ".." := fun hsame => by
    have hend := congrArg List.getLast? hsame
    simp at hend
  obtain ⟨hlockName, rfl | ⟨target, hlook⟩⟩ :=
    fileAt?_of_reaches hlockEnds hcounts hup hreached hlock
  · have hstays : Changes ⟨fun _ => True, fun _ => True, IsLeftover place⟩ touched later := by
      refine (hstart.mono (fun _ _ => trivial) (fun _ _ => trivial) ?_).trans
        (hchanges.mono (fun _ _ => trivial) (fun _ _ => trivial) hdrops)
      rintro location ⟨other, hother, hleft⟩
      rwa [← Option.some.inj (hplace.symm.trans hother)] at hleft
    rw [hstays.fileAt? (not_isLeftover_lock base stem place) hlock]
    rfl
  · refine absurd (isLink_of_look hlockEnds hlockName ?_ ((hkeeps _).2 target hlook)) hlink
    rw [hlater]
    exact hreached.keeps hkeeps

/-! ### The place of the ledger file -/

theorem ledgerSteps_idle (h : Path.isIdlePart part) :
    ledgerSteps root here (part :: rest) = ledgerSteps root here rest := by
  rw [ledgerSteps, if_pos h]

theorem ledgerSteps_up : ledgerSteps root here (".." :: rest) = ledgerSteps root here.dropLast rest := by
  rw [ledgerSteps, if_neg (by decide), if_pos rfl]

/-- A part that leads down, to a location that is not too deep for a ledger. -/
structure IsLedgerName (here : Location) (part : Text) : Prop where
  counts : ¬Path.isIdlePart part
  down : part ≠ ".."
  /-- It is not too long, and neither is the way. -/
  size : ¬(maxNameSize < Utf8.size part ∨ maxLedgerWalkSize < fullPathSize (here ++ [part]))

theorem ledgerSteps_long (hidle : ¬Path.isIdlePart part) (hup : part ≠ "..")
    (h : ¬IsLedgerName here part) : ledgerSteps root here (part :: rest) = none := by
  rw [ledgerSteps, if_neg hidle, if_neg hup]
  by_cases hsize : maxNameSize < Utf8.size part ∨ maxLedgerWalkSize < fullPathSize (here ++ [part])
  · exact if_pos hsize
  · exact absurd ⟨hidle, hup, hsize⟩ h

theorem ledgerSteps_link {target : Path} (h : IsLedgerName here part)
    (hlook : root.look (here ++ [part]) = .link target) :
    ledgerSteps root here (part :: rest) =
      some (if Path.isAbsolute target then [] else here,
        some (Text.splitOn '/' target ++ rest)) := by
  rw [ledgerSteps, if_neg h.counts, if_neg h.down]
  dsimp only
  rw [if_neg h.size, Node.look_eq_link_iff.mp hlook]

/-- In a folder a name leads on, whatever stands there but a link. -/
theorem ledgerSteps_down (h : IsLedgerName here part) (hfolder : root.look here = .folder)
    (hlink : ∀ target, root.look (here ++ [part]) ≠ .link target) :
    ledgerSteps root here (part :: rest) = ledgerSteps root (here ++ [part]) rest := by
  obtain ⟨entries, hget⟩ := Node.look_eq_folder_iff.mp hfolder
  rw [ledgerSteps, if_neg h.counts, if_neg h.down]
  dsimp only
  rw [if_neg h.size]
  cases hnext : root.get? (here ++ [part]) with
  | none => rw [hget]
  | some node =>
      cases node with
      | link target => exact absurd (Node.look_eq_link_iff.mpr hnext) (hlink target)
      | folder entries => rfl
      | file content => rfl

theorem ledgerLocation?_eq (root : Node) (links : Nat) (here : Location) (parts : List Text) :
    ledgerLocation? root links here parts =
      match ledgerSteps root here parts with
      | none => none
      | some (location, none) =>
        if maxLedgerPathSize < fullPathSize location then none else some location
      | some (location, some parts) =>
        match links with
        | 0 => none
        | links + 1 => ledgerLocation? root links location parts :=
  ledgerLocation?.eq_def root links here parts

theorem ledgerLocation?_of_steps {here' : Location} {parts parts' : List Text}
    (h : ledgerSteps root here parts = ledgerSteps root here' parts') (links : Nat) :
    ledgerLocation? root links here parts = ledgerLocation? root links here' parts' := by
  rw [ledgerLocation?_eq, h, ← ledgerLocation?_eq]

/-- Parts that lead to a folder lead the path of a ledger to the same place when folders and links
stay, if it is so from that folder. -/
theorem LeadsTo.ledgerLocation?_eq (hkeeps : Keeps root new)
    (hrest : ∀ links, ledgerLocation? new links base rest = ledgerLocation? root links base rest)
    (h : LeadsTo root base links here front) (left : Nat) :
    ledgerLocation? new left here (front ++ rest) = ledgerLocation? root left here (front ++ rest) := by
  induction h generalizing left with
  | done => exact hrest left
  | idle hidle _ ih =>
      rw [List.cons_append, ledgerLocation?_of_steps (ledgerSteps_idle hidle), ih left,
        ← ledgerLocation?_of_steps (ledgerSteps_idle hidle)]
  | up _ ih =>
      rw [List.cons_append, ledgerLocation?_of_steps ledgerSteps_up, ih left,
        ← ledgerLocation?_of_steps ledgerSteps_up]
  | @down links here part parts hname hlook _ ih =>
      rw [List.cons_append]
      by_cases hledger : IsLedgerName here part
      · have hfolder : root.look here = .folder :=
          Node.look_above (by rw [hlook]; nofun) (List.cons_ne_nil part [])
        rw [ledgerLocation?_of_steps (ledgerSteps_down hledger hfolder (by simp [hlook])), ← ih left]
        exact ledgerLocation?_of_steps (ledgerSteps_down hledger ((hkeeps _).1 hfolder)
          (by simp [(hkeeps _).1 hlook])) left
      · rw [Disk.ledgerLocation?_eq, Disk.ledgerLocation?_eq,
          ledgerSteps_long hname.1 hname.2.1 hledger, ledgerSteps_long hname.1 hname.2.1 hledger]
  | @link links here part parts target hname hlook _ ih =>
      rw [List.cons_append, Disk.ledgerLocation?_eq, Disk.ledgerLocation?_eq root]
      by_cases hledger : IsLedgerName here part
      · rw [ledgerSteps_link hledger hlook, ledgerSteps_link hledger ((hkeeps _).2 _ hlook)]
        cases left with
        | zero => rfl
        | succ left =>
            dsimp only
            rw [← List.append_assoc]
            exact ih left
      · rw [ledgerSteps_long hname.1 hname.2.1 hledger, ledgerSteps_long hname.1 hname.2.1 hledger]

theorem ledgerSteps_all_idle (h : ∀ part ∈ idle, Path.isIdlePart part) :
    ledgerSteps root here (idle ++ rest) = ledgerSteps root here rest := by
  induction idle with
  | nil => rfl
  | cons part idle ih =>
      obtain ⟨hpart, hidle⟩ := List.forall_mem_cons.mp h
      rw [List.cons_append, ledgerSteps_idle hpart, ih hidle]

theorem ledgerSteps_behind (hidle : ∀ part ∈ idle, Path.isIdlePart part) (here : Location) :
    ledgerSteps root here idle = some (here, none) := by
  rw [← List.append_nil idle, ledgerSteps_all_idle hidle, ledgerSteps]

/-- The last name leads to the same place in a folder, whatever stands there but a link. -/
theorem ledgerLocation?_last (hidle : ∀ part ∈ idle, Path.isIdlePart part)
    (hplain : IsLedgerName base last → ∀ tree ∈ [root, new], tree.look base = .folder ∧
      ∀ target, tree.look (base ++ [last]) ≠ .link target) (links : Nat) :
    ledgerLocation? new links base (last :: idle) =
      ledgerLocation? root links base (last :: idle) := by
  by_cases hlast : Path.isIdlePart last
  · rw [ledgerLocation?_eq, ledgerLocation?_eq, ledgerSteps_idle hlast, ledgerSteps_idle hlast,
      ledgerSteps_behind hidle, ledgerSteps_behind hidle]
  by_cases hup : last = ".."
  · rw [ledgerLocation?_eq, ledgerLocation?_eq, hup, ledgerSteps_up, ledgerSteps_up,
      ledgerSteps_behind hidle, ledgerSteps_behind hidle]
  by_cases hname : IsLedgerName base last
  · have hdown : ∀ tree ∈ [root, new],
        ledgerSteps tree base (last :: idle) = some (base ++ [last], none) := by
      intro tree htree
      obtain ⟨hfolder, hlink⟩ := hplain hname tree htree
      rw [ledgerSteps_down hname hfolder hlink, ledgerSteps_behind hidle]
    rw [ledgerLocation?_eq, ledgerLocation?_eq, hdown root (by simp), hdown new (by simp)]
  · rw [ledgerLocation?_eq, ledgerLocation?_eq, ledgerSteps_long hlast hup hname,
      ledgerSteps_long hlast hup hname]

/-- Where a path names a ledger file in a folder, the parts in front lead to this folder. -/
theorem Reaches.look (hends : path.EndsIn front last idle)
    (hreaches : Reaches disk.root base links (disk.start path) front)
    (hname : IsLedgerName base last) (hplace : disk.ledgerPlace? path = some place)
    (hfolder : disk.root.look place.1 = .folder) : disk.root.look base = .folder := by
  rcases hreaches with hleads | ⟨rfl, hidle⟩
  · exact hleads.look
  by_contra hnot
  have hnothing : disk.root.get? (disk.start path ++ [last]) = none :=
    Node.look_eq_nothing_iff.mp (Node.look_below hnot (List.cons_ne_nil last []))
  have hsteps : ledgerSteps disk.root (disk.start path) (last :: idle) = none ∨
      ledgerSteps disk.root (disk.start path) (last :: idle) =
        some (disk.start path ++ [last], none) := by
    rw [ledgerSteps, if_neg hname.counts, if_neg hname.down]
    dsimp only
    rw [if_neg hname.size, hnothing, ledgerSteps_behind hends.behind]
    dsimp only
    split
    · exact Or.inl rfl
    · exact Or.inr rfl
  rw [ledgerPlace?, hends.parts, ledgerLocation?_of_steps (ledgerSteps_all_idle hidle),
    ledgerLocation?_eq] at hplace
  rcases hsteps with hsteps | hsteps
  · rw [hsteps] at hplace
    cases hplace
  · rw [hsteps] at hplace
    dsimp only at hplace
    split_ifs at hplace
    · cases hplace
    · simp only [bind, Option.bind, List.getLast?_concat, List.dropLast_concat] at hplace
      cases hplace
      exact hnot hfolder

theorem ledgerPlace?_again (hmade : disk.createLedgerFolder path = (made, .ok ()))
    (hkeeps : Keeps made.root later.root) (hworking : later.workingFolder = made.workingFolder)
    (hplace : made.ledgerPlace? path = some place) (hfolder : made.root.look place.1 = .folder)
    (hlink : ¬later.isLink path) : later.ledgerPlace? path = some place := by
  obtain ⟨front, last, idle, hends⟩ := Path.exists_endsIn path
  obtain ⟨base, hreaches⟩ := reaches_front hmade hends
  have hstart : later.start path = made.start path := by rw [Disk.start, Disk.start, hworking]
  have hlater : Reaches later.root base maxLinks (later.start path) front := by
    rw [hstart]
    exact hreaches.keeps hkeeps
  have hlast : ∀ links, ledgerLocation? later.root links base (last :: idle) =
      ledgerLocation? made.root links base (last :: idle) := by
    refine ledgerLocation?_last hends.behind fun hname => ?_
    have hmadeFolder := hreaches.look hends hname hplace hfolder
    have hplain : ∀ target, later.root.look (base ++ [last]) ≠ .link target := fun target hlook =>
      hlink (isLink_of_look hends ⟨hname.counts, hname.down, fun h => hname.size (Or.inl h)⟩ hlater
        hlook)
    rw [List.forall_mem_cons, List.forall_mem_singleton]
    exact ⟨⟨hmadeFolder, fun target hlook => hplain target ((hkeeps _).2 target hlook)⟩,
      (hkeeps _).1 hmadeFolder, hplain⟩
  have hsame : ledgerLocation? later.root maxLedgerLinks (later.start path) (Text.splitOn '/' path) =
      ledgerLocation? made.root maxLedgerLinks (made.start path) (Text.splitOn '/' path) := by
    rw [hstart, hends.parts]
    rcases hreaches with hleads | ⟨rfl, hidle⟩
    · exact hleads.ledgerLocation?_eq hkeeps hlast maxLedgerLinks
    · rw [ledgerLocation?_of_steps (ledgerSteps_all_idle hidle), hlast,
        ← ledgerLocation?_of_steps (ledgerSteps_all_idle hidle)]
  rw [ledgerPlace?, hsame]
  exact hplace

/-! ### Opening again -/

structure FindsLedger (disk : Disk) (path : Path) (place : Location × Text) : Prop where
  /-- The path is plain and not that of a link, or else the path of its address leads to the place
  and the file from which a new ledger would take its permissions is there. -/
  file : Text.after? path LedgerAddress.scheme = none ∧ ¬disk.isLink path ∨
    ∃ address, ledgerAddress path = .ok address ∧ disk.ledgerPlace? address.path = some place ∧
      ∀ model ∈ address.model?, disk.has model
  /-- The path has a file name and the lock file is not a link, or else the lock file is there. -/
  lock : (Path.stem? path).isSome ∧ ¬disk.isLink (lockPath path) ∨
    (disk.fileAt? (lockPath path)).isSome

theorem ledgerAddress_of_plain {address : LedgerAddress}
    (hplain : Text.after? path LedgerAddress.scheme = none) (h : ledgerAddress path = .ok address) :
    address = { path } := by
  rw [ledgerAddress, LedgerAddress.parse, hplain] at h
  split at h
  · cases h
  · exact (Except.ok.inj h).symm

theorem ledgerFile_of_file {address : LedgerAddress} {content : Content}
    (hmemory : ¬address.isInMemory) (hplace : disk.ledgerPlace? address.path = some place)
    (hmodel : ∀ model ∈ address.model?, disk.has model)
    (hlook : disk.root.look (place.1 ++ [place.2]) = .file content) :
    disk.ledgerFile path address = (disk, .ok (some place, content)) := by
  have hany : ¬address.model?.any fun model => !disk.has model := by
    intro hmissing
    obtain ⟨model, hmem, hnot⟩ := (Option.any_eq_true _ _).mp hmissing
    rw [hmodel model hmem] at hnot
    cases hnot
  rw [ledgerFile, if_neg hmemory, hplace]
  simp only [if_neg hany, Node.look_eq_file_iff.mp hlook]

/-- The paths of an open ledger's file and of the file that it needs still lead there. -/
theorem FindsLedger.leads {address : LedgerAddress} {found : Disk} {content : Content}
    (h : later.FindsLedger path place) (haddress : ledgerAddress path = .ok address)
    (hmade : disk.createLedgerFolder path = (made, .ok ()))
    (hfile : made.ledgerFile path address = (found, .ok (some place, content)))
    (hseat : made.ledgerPlace? address.path = some place)
    (hkeeps : Keeps made.root later.root) (hworking : later.workingFolder = made.workingFolder) :
    later.ledgerPlace? address.path = some place ∧ ∀ model ∈ address.model?, later.has model := by
  rcases h.file with ⟨hplain, hlink⟩ | ⟨other, hother, hleads⟩
  · obtain rfl := ledgerAddress_of_plain hplain haddress
    exact ⟨ledgerPlace?_again hmade hkeeps hworking hseat (ledgerFile_folder hfile) hlink, nofun⟩
  · cases haddress.symm.trans hother
    exact hleads

/-- A lock file that is there is left as it is. -/
theorem touch_again {found touched : Disk} (h : found.touch path = .ok touched)
    (hroot : later.root.look [] = .folder) (hlock : (later.fileAt? path).isSome) :
    later.touch path = .ok later := by
  obtain ⟨_, _, hplace, -⟩ := touch_ok h
  obtain ⟨lock, hlock⟩ := Option.isSome_iff_exists.mp hlock
  obtain ⟨content, hlook⟩ := look_of_fileAt? hlock
  have hne : lock ≠ [] := by
    rintro rfl
    cases hlook.symm.trans hroot
  rw [← List.dropLast_append_getLast hne] at hlock hlook
  have hagain := filePlace_of_fileAt? (filePlace_not_endsWith hplace) hlock
  rw [touch, hagain]
  simp only [bind, Except.bind, Node.look_eq_file_iff.mp hlook]
  rfl

/-- Nothing is left beside the file of an open ledger. -/
theorem IsOpen.clearPlace_eq (h : disk.IsOpen opened) (hplace : opened.place? = some place)
    (hwrite : opened.isReadOnly = false) (isReadOnly : Bool) (content : Content) :
    disk.clearPlace (some place) isReadOnly content = disk := by
  have hjournal : disk.firstByte? place.1 (journalName place.2) = none := by
    have hnone := h.journal place hplace hwrite
    rw [firstByte?_eq]
    cases hlook : disk.root.look (place.1 ++ [journalName place.2]) with
    | file held =>
        rw [hlook] at hnone
        exact absurd rfl hnone
    | nothing | link target | folder => rfl
  rw [clearPlace]
  split_ifs
  · rfl
  · exact dropLeftovers_eq hjournal (h.log place hplace hwrite)

theorem createLedgerFolder_again {later : Disk}
    (h : disk.createLedgerFolder path = (made, .ok ())) (hkeeps : Keeps made.root later.root)
    (hworking : later.workingFolder = made.workingFolder) :
    later.createLedgerFolder path = (later, .ok ()) := by
  rw [createLedgerFolder] at h ⊢
  cases habove : Path.parent? path with
  | none => rfl
  | some above =>
      rw [habove] at h
      dsimp only at h ⊢
      cases hfolders : disk.createFolders above with
      | mk between result =>
          rw [hfolders] at h
          cases result with
          | error fault => cases h
          | ok _ =>
              cases h
              rw [createFolders_again hfolders hkeeps hworking]

/-- A ledger that was opened, was stored with other rows and is found by its path is opened again
with these rows, and nothing changes. -/
theorem openLedger_again {ledger : Ledger} (h : disk.openLedger path = (start, .ok opened))
    (hplace : opened.place? = some place) (hwrite : opened.isReadOnly = false)
    (hchanges : Changes scope start later)
    (hdrops : ∀ location, scope.drops location → IsLeftover place location)
    (hopen : later.IsOpen { opened with ledger }) (hfinds : later.FindsLedger path place) :
    later.openLedger path = (later, .ok { opened with ledger }) := by
  have hlock : (later.fileAt? (lockPath path)).isSome :=
    hfinds.lock.elim (fun hplain => lock_stays h hplain.1 hplace hchanges hdrops hplain.2) id
  obtain ⟨made', touched', lock, hmade', -, htouched', hstart⟩ := openLedger_changes h
  have hopening : Changes (.opening opened.place? lock) made' start := htouched'.trans hstart
  have hkeeps := hopening.keeps.trans hchanges.keeps
  have hworking := hchanges.workingFolder_eq.trans hopening.workingFolder_eq
  obtain ⟨address, made, found, touched, place?, content, haddress, hmade, hfile, htouch, hcontent,
    -⟩ := openLedger_ok h
  obtain ⟨-, hplaces, hreadOnly, hshared⟩ := openContent_ok hcontent
  obtain rfl : place? = some place := hplaces.symm.trans hplace
  cases hmade.symm.trans hmade'
  obtain ⟨other, hmemory, hother, hseat, hmodels, -⟩ := (ledgerFile_ok hfile).resolve_left
    fun hnone => nomatch hnone.2.1
  obtain rfl := Option.some.inj hother
  have hthere := hfinds.leads haddress hmade hfile hseat hkeeps hworking
  have hstored := hopen.stored place hplace hwrite
  have hfolder := createLedgerFolder_again hmade hkeeps hworking
  have hfound : later.ledgerFile path address = _ :=
    ledgerFile_of_file hmemory hthere.1 hthere.2 hstored
  have hroot : later.root.look [] = .folder :=
    Node.look_top (Node.look_above (by rw [hstored]; nofun) (List.cons_ne_nil place.2 []))
  have htouched : later.touch (lockPath path) = .ok later := touch_again htouch hroot hlock
  have hcleared := hopen.clearPlace_eq hplace hwrite address.isReadOnly (.ledger ledger)
  have hrows : openContent address (some place) (.ledger ledger) = .ok { opened with ledger } := by
    rw [openContent, ← hplace, ← hreadOnly, ← hshared]
    simp [rowsOf, isBlankFile]
  rw [openLedger, hfolder, haddress]
  dsimp only
  rw [hfound]
  dsimp only
  rw [readLedger, htouched]
  dsimp only
  rw [hcleared, hrows]
  dsimp only
  rw [hopen.storeLedger_eq]

end Disk

end SampleHarvest
