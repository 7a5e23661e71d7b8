import SampleHarvest.Shell.Check
import SampleHarvest.Shell.Utility.Simple

/-!
# Making and removing files

Files, folders and links are made, removed, copied and moved. Where several operands are given the
last one is the folder that the others go to.

Permissions are kept beside the tree of files, by the location of what has them.
-/

namespace SampleHarvest

namespace Shell

namespace Utility

/-- Where a raw path leads, over a link at its end or not. -/
def locateRaw (follows : Bool) (path : Text) : Act (Except DiskFault Disk.Place) := do
  return (← get).disk.locate follows (Text.ofRaw path)

/-- Gives what is at a location permissions. -/
def setMode (location : Location) (mode : Nat) : Act Unit :=
  modify fun machine =>
    { machine with
      modes := (location, mode) :: machine.modes.filter fun entry => entry.1 != location }

/-- Forgets the permissions of everything at a location and below it. -/
def forgetModes (location : Location) : Act Unit :=
  modify fun machine =>
    { machine with modes := machine.modes.filter fun entry => !location.isPrefixOf entry.1 }

def putNode (folder : Location) (name : Text) (node : Node) : Act Unit :=
  modify fun machine => { machine with disk := machine.disk.put folder name node }

def eraseNode (location : Location) : Act Unit := do
  match location.getLast? with
  | none => return
  | some name =>
    modify fun machine =>
      let root := machine.disk.root.erase location.dropLast name
      { machine with disk := { machine.disk with root } }
    forgetModes location

/-- The permissions that letters mean behind these. -/
def symbolicMode? (isFolder : Bool) (mask old : Nat) (t : Text) : Option Nat :=
  let who := t.takeWhile fun c => c == 'u' || c == 'g' || c == 'o' || c == 'a'
  let isAll := who.isEmpty || who.any (· == 'a')
  let places : List Nat :=
    (if isAll || who.any (· == 'u') then [64] else []) ++
      (if isAll || who.any (· == 'g') then [8] else []) ++
      if isAll || who.any (· == 'o') then [1] else []
  let rec apply : (most : Nat) → Nat → Text → Option Nat
    | 0, _, _ => none
    | _, mode, [] => some mode
    | most + 1, mode, operator :: t =>
      if operator ≠ '+' ∧ operator ≠ '-' ∧ operator ≠ '=' then none
      else
        let letters := t.takeWhile fun c => "rwxXstugo".toList.contains c
        let copied (c : Char) : Nat :=
          if c = 'u' then mode / 64 % 8 else if c = 'g' then mode / 8 % 8 else mode % 8
        let bits := letters.foldl (fun n c =>
          Nat.lor n (if c = 'r' then 4 else if c = 'w' then 2 else if c = 'x' then 1
            else if c = 'X' then (if isFolder ∨ Nat.land mode 0o111 ≠ 0 then 1 else 0)
            else if c = 's' ∨ c = 't' then 0
            else copied c)) 0
        let special :=
          (if letters.any (· == 's') then
            (if places.contains 64 then 0o4000 else 0) + (if places.contains 8 then 0o2000 else 0)
          else 0) + if letters.any (· == 't') then 0o1000 else 0
        let spread := places.foldl (fun n place => n + bits * place) special
        let spread := if who.isEmpty then Nat.land spread (0o7777 - mask) else spread
        let full := places.foldl (fun n place => n + 7 * place) 0
        let without (a b : Nat) : Nat := a - Nat.land a b
        let mode :=
          if operator = '+' then Nat.lor mode spread
          else if operator = '-' then without mode spread
          else Nat.lor (without mode full) spread
        apply most mode (t.drop letters.length)
  let rest := t.drop who.length
  if rest.isEmpty then none else apply (rest.length + 1) old rest

/-- The permissions that a word means for something with these. -/
def modeOfWord? (isFolder : Bool) (mask old : Nat) (word : Text) : Option Nat :=
  if !word.isEmpty ∧ word.all fun c => '0' ≤ c && c ≤ '7' then
    let n := word.foldl (fun n c => 8 * n + Text.digitValue c) 0
    if n < 0o10000 then some n else none
  else
    (Text.splitOn ',' word).foldl
      (fun mode? part => mode?.bind fun mode => symbolicMode? isFolder mask mode part) (some old)

/-- Makes one folder, which something else stands above or not. -/
def makeFolder (given : Given) (isAbove : Bool) (path : Text) : Act Bool := do
  match ← changeDisk fun disk => disk.createFolder (Text.ofRaw path) with
  | some fault =>
    let fault := if isAbove && fault == .occupied then .notFolder else fault
    say ("cannot create directory " ++ quoted path ++ ": " ++ fault.reason)
    return false
  | none =>
    if given.has 'v' then putLine ((← getProcess).name ++ ": created directory " ++ quoted path)
    match given.value? 'm', ← locateRaw true path with
    | some word, .ok (.present location _) =>
      setMode location ((modeOfWord? true 0 0o777 word).getD 0o755)
    | _, _ => pure ()
    return true

/-- The paths that lead to a path, one part longer each. -/
def leadingPaths (path : Text) : List Text :=
  let rec pathsFrom (front : Text) : Text → List Text
    | [] => if front.isEmpty then [] else [front.reverse]
    | c :: t =>
      if c = '/' ∧ !front.isEmpty ∧ front.head? ≠ some '/' then
        front.reverse :: pathsFrom (c :: front) t
      else pathsFrom (c :: front) t
  (pathsFrom [] path).filter fun path => !path.all (· == '/')

/-- Makes folders, with those above them if that is wanted. -/
def mkdir : Utility := fun _ words =>
  withOptions
    { flags := "pv", valued := ['m']
      names := [⟨"parents", 'p', false⟩, ⟨"mode", 'm', true⟩, ⟨"verbose", 'v', false⟩] }
    words fun given => do
      if given.operands.isEmpty then misuse "missing operand"
      else
        let rec make : List Text → Act Bool
          | [] => return true
          | path :: paths => do
            match ← nodeAt path with
            | .ok (.folder _) => make paths
            | _ =>
              if ← makeFolder given (!paths.isEmpty) path then make paths else return false
        let mut status := 0
        for operand in given.operands do
          let paths :=
            if given.has 'p' ∧ !operand.isEmpty then leadingPaths operand else []
          let isDone ← if paths.isEmpty then makeFolder given false operand else make paths
          unless isDone do status := 1
        return status

def removeFolder (given : Given) (path : Text) : Act Bool := do
  let refuse (reason : Text) : Act Bool := do
    say ("failed to remove " ++ quoted path ++ ": " ++ reason)
    return false
  match ← locateRaw false path with
  | .error fault => refuse fault.reason
  | .ok (.vacant _ _) => refuse DiskFault.missing.reason
  | .ok (.present location (.folder [])) =>
    if given.has 'v' then putLine ((← getProcess).name ++ ": removing directory, " ++ quoted path)
    eraseNode location
    return true
  | .ok (.present _ (.folder _)) => refuse "Directory not empty"
  | .ok (.present _ _) => refuse DiskFault.notFolder.reason

/-- Removes folders that are empty. -/
def rmdir : Utility := fun _ words =>
  withOptions
    { flags := "pv", names := [⟨"parents", 'p', false⟩, ⟨"ignore-fail-on-non-empty", '!', false⟩] }
    words fun given => do
      if given.operands.isEmpty then misuse "missing operand"
      else
        let mut status := 0
        for operand in given.operands do
          let paths := if given.has 'p' then (leadingPaths operand).reverse else [operand]
          let mut goesOn := true
          for path in paths do
            if goesOn then
              unless ← removeFolder given path do
                goesOn := false
                status := 1
        return status

/-- Says what is removed, the inside before the outside. -/
def tellRemoved (path : Text) : Node → Act Unit
  | .folder entries => do
    tellEntries path entries
    putLine ("removed directory " ++ quoted path)
  | _ => putLine ("removed " ++ quoted path)
where
  /-- Says what is removed of the entries of a folder. -/
  tellEntries (path : Text) : List (Text × Node) → Act Unit
    | [] => return
    | (name, node) :: entries => do
      tellRemoved (path ++ ['/'] ++ Text.toRaw name) node
      tellEntries path entries

/-- Removes what an operand names. -/
def removeOne (given : Given) (path : Text) : Act Bool := do
  let isForced := given.last? "fi" == some 'f'
  let recurses := given.has 'r' || given.has 'R'
  let refuse (reason : Text) : Act Bool := do
    say ("cannot remove " ++ quoted path ++ ": " ++ reason)
    return false
  let name := lastName path
  match ← locateRaw false path with
  | .error .missing => if isForced then return true else refuse DiskFault.missing.reason
  | .error fault => refuse fault.reason
  | .ok (.vacant _ _) => if isForced then return true else refuse DiskFault.missing.reason
  | .ok (.present location node) =>
    if node.isFolder ∧ !recurses ∧ !given.has 'd' then refuse DiskFault.isFolder.reason
    else if node.isFolder ∧ recurses ∧ location.isEmpty then
      say ("it is dangerous to operate recursively on " ++ quoted path)
      say "use --no-preserve-root to override this failsafe"
      return false
    else if node.isFolder ∧ (name = "." ∨ name = "..") then
      say ("refusing to remove '.' or '..' directory: skipping " ++ quoted path)
      return false
    else if node.isFolder ∧ !recurses ∧ !node.entries.isEmpty then refuse "Directory not empty"
    else
      if given.has 'v' then tellRemoved path node
      eraseNode location
      return true

/-- Removes files. -/
def rm : Utility := fun _ words =>
  withOptions
    { flags := "dfiIrRv"
      names := [⟨"force", 'f', false⟩, ⟨"recursive", 'r', false⟩, ⟨"dir", 'd', false⟩,
        ⟨"verbose", 'v', false⟩] }
    words fun given => do
      if given.operands.isEmpty then
        if given.has 'f' then return 0 else misuse "missing operand"
      else
        let mut status := 0
        for operand in given.operands do
          unless ← removeOne given operand do status := 1
        return status

/-- Makes files that are not there yet. -/
def touch : Utility := fun _ words =>
  withOptions
    { flags := "acmfh", valued := "drt"
      names := [⟨"no-create", 'c', false⟩, ⟨"date", 'd', true⟩, ⟨"reference", 'r', true⟩] }
    words fun given => do
      if given.operands.isEmpty then misuse "missing file operand"
      else
        let mut status := 0
        for operand in given.operands do
          match ← locateRaw true operand with
          | .ok (.present _ _) => pure ()
          | .ok (.vacant folder name) =>
            if given.has 'c' then pure ()
            else if Text.endsWith operand "/" then
              say ("setting times of " ++ quoted operand ++ ": " ++ DiskFault.missing.reason)
              status := 1
            else putNode folder name (.file (.bytes []))
          | .error fault =>
            unless given.has 'c' ∧ fault = .missing do
              say ("cannot touch " ++ quoted operand ++ ": " ++ fault.reason)
              status := 1
        return status

def inFolder (folder path : Text) : Text :=
  (if Text.endsWith folder "/" then folder else folder ++ ['/']) ++ lastName path

/-- Puts a copy of a node at a place, into a folder that is there already. -/
def mergeNode (old? : Option Node) : Node → Node
  | .folder entries =>
    match old? with
    | some (.folder old) => .folder (mergeEntries old entries)
    | _ => .folder entries
  | node => node
where
  /-- Puts copies of entries among others. -/
  mergeEntries (old : List (Text × Node)) : List (Text × Node) → List (Text × Node)
    | [] => old
    | (name, node) :: entries =>
      mergeEntries (Node.setEntry name (mergeNode (Node.child? name old) node) old) entries

/-- Copies one thing to a path. -/
def copyOne (given : Given) (source target : Text) : Act Bool := do
  let recurses := given.has 'r' || given.has 'R' || given.has 'a'
  let follows := !(given.has 'P' || given.has 'd' || given.has 'a') && !(recurses && !given.has 'L')
  let refuse (message : Text) : Act Bool := do
    say message
    return false
  match ← locateRaw follows source with
  | .error fault => refuse ("cannot stat " ++ quoted source ++ ": " ++ fault.reason)
  | .ok (.vacant _ _) =>
    refuse ("cannot stat " ++ quoted source ++ ": " ++ DiskFault.missing.reason)
  | .ok (.present location node) =>
    if node.isFolder ∧ !recurses then
      refuse ("-r not specified; omitting directory " ++ quoted source)
    else
      let mode := modeOf (← get) location node
      let finish (folder : Location) (name : Text) (old? : Option Node) : Act Bool := do
        putNode folder name (mergeNode old? node)
        unless old?.isSome do setMode (folder ++ [name]) mode
        if given.has 'v' then putLine (quoted source ++ " -> " ++ quoted target)
        return true
      match ← locateRaw true target with
      | .error fault =>
        refuse ("cannot create regular file " ++ quoted target ++ ": " ++ fault.reason)
      | .ok (.vacant folder name) =>
        if Text.endsWith target "/" ∧ !node.isFolder then
          refuse ("cannot create regular file " ++ quoted target ++ ": " ++
            DiskFault.notFolder.reason)
        else if location.isPrefixOf folder ∧ node.isFolder then
          refuse
            ("cannot copy a directory, " ++ quoted source ++ ", into itself, " ++ quoted target)
        else finish folder name none
      | .ok (.present other old) =>
        if other = location then
          refuse (quoted source ++ " and " ++ quoted target ++ " are the same file")
        else if node.isFolder ∧ location.isPrefixOf other then
          refuse
            ("cannot copy a directory, " ++ quoted source ++ ", into itself, " ++ quoted target)
        else if node.isFolder ∧ !old.isFolder then
          refuse ("cannot overwrite non-directory " ++ quoted target ++ " with directory " ++
            quoted source)
        else if !node.isFolder ∧ old.isFolder then
          refuse ("cannot overwrite directory " ++ quoted target ++ " with non-directory")
        else if given.has 'n' then return true
        else
          match other.getLast? with
          | some name => finish other.dropLast name (some old)
          | none => return true

/-- Goes on with the sources and the path that each one goes to. -/
def withTargets (given : Given) (act : List (Text × Text) → Act Nat) : Act Nat := do
  let isFolder (path : Text) : Act Bool := do
    match ← nodeAt path with
    | .ok node => return node.isFolder
    | .error _ => return false
  match given.value? 't', given.operands with
  | some folder, operands => act (operands.map fun source => (source, inFolder folder source))
  | none, [] => misuse "missing file operand"
  | none, [one] => misuse ("missing destination file operand after " ++ quoted one)
  | none, [source, target] =>
    if !given.has 'T' ∧ (← isFolder target) then act [(source, inFolder target source)]
    else act [(source, target)]
  | none, operands =>
    let target := operands.getLast?.getD []
    if ← isFolder target then
      act (operands.dropLast.map fun source => (source, inFolder target source))
    else
      let reason : Text :=
        match ← nodeAt target with
        | .ok _ => DiskFault.notFolder.reason
        | .error fault => fault.reason
      abort ("target " ++ quoted target ++ ": " ++ reason)

/-- Does something with each source and its target. -/
def eachTarget (act : Text → Text → Act Bool) (pairs : List (Text × Text)) : Act Nat := do
  let mut status := 0
  for (source, target) in pairs do
    unless ← act source target do status := 1
  return status

/-- Copies files. -/
def cp : Utility := fun _ words =>
  withOptions
    { flags := "adfiLnPpRrTuvH", valued := ['t']
      names := [⟨"archive", 'a', false⟩, ⟨"force", 'f', false⟩, ⟨"recursive", 'r', false⟩,
        ⟨"no-clobber", 'n', false⟩, ⟨"verbose", 'v', false⟩, ⟨"target-directory", 't', true⟩,
        ⟨"no-target-directory", 'T', false⟩] }
    words fun given => withTargets given (eachTarget (copyOne given))

/-- The permissions of what is at a location and below it, under another location. -/
def moveModes (source target : Location) : Act Unit :=
  modify fun machine =>
    { machine with
      modes := machine.modes.map fun (location, mode) =>
        if source.isPrefixOf location then (target ++ location.drop source.length, mode)
        else (location, mode) }

/-- Moves one thing to a path. -/
def moveOne (given : Given) (source target : Text) : Act Bool := do
  let refuse (message : Text) : Act Bool := do
    say message
    return false
  match ← locateRaw false source with
  | .error fault => refuse ("cannot stat " ++ quoted source ++ ": " ++ fault.reason)
  | .ok (.vacant _ _) =>
    refuse ("cannot stat " ++ quoted source ++ ": " ++ DiskFault.missing.reason)
  | .ok (.present location node) =>
    let finish (folder : Location) (name : Text) : Act Bool := do
      let goal := folder ++ [name]
      modify fun machine =>
        let root := machine.disk.root.erase location.dropLast (location.getLast?.getD [])
        { machine with disk := { machine.disk with root } }
      forgetModes goal
      putNode folder name node
      moveModes location goal
      if given.has 'v' then putLine ("renamed " ++ quoted source ++ " -> " ++ quoted target)
      return true
    match ← locateRaw false target with
    | .error fault =>
      refuse ("cannot move " ++ quoted source ++ " to " ++ quoted target ++ ": " ++ fault.reason)
    | .ok (.vacant folder name) =>
      if Text.endsWith target "/" ∧ !node.isFolder then
        refuse ("cannot move " ++ quoted source ++ " to " ++ quoted target ++ ": " ++
          DiskFault.notFolder.reason)
      else if location.isPrefixOf folder ∧ node.isFolder then
        refuse
          ("cannot move " ++ quoted source ++ " to a subdirectory of itself, " ++ quoted target)
      else finish folder name
    | .ok (.present other old) =>
      if other = location then
        refuse (quoted source ++ " and " ++ quoted target ++ " are the same file")
      else if given.has 'n' then refuse ("not replacing " ++ quoted target)
      else if node.isFolder ∧ !old.isFolder then
        refuse ("cannot overwrite non-directory " ++ quoted target ++ " with directory " ++
          quoted source)
      else if !node.isFolder ∧ old.isFolder then
        refuse ("cannot overwrite directory " ++ quoted target ++ " with non-directory")
      else if node.isFolder ∧ !old.entries.isEmpty then
        refuse ("cannot overwrite " ++ quoted target ++ ": Directory not empty")
      else
        match other.getLast? with
        | some name => finish other.dropLast name
        | none => return true

/-- Moves files. -/
def mv : Utility := fun _ words =>
  withOptions
    { flags := "finTuv", valued := ['t']
      names := [⟨"force", 'f', false⟩, ⟨"no-clobber", 'n', false⟩, ⟨"verbose", 'v', false⟩,
        ⟨"target-directory", 't', true⟩, ⟨"no-target-directory", 'T', false⟩] }
    words fun given => withTargets given (eachTarget (moveOne given))

/-- Makes one link to a path. A link that is not symbolic is a copy. -/
def linkOne (given : Given) (source target : Text) : Act Bool := do
  let refuse (message : Text) : Act Bool := do
    say message
    return false
  let isSymbolic := given.has 's'
  let kind : Text := if isSymbolic then "symbolic" else "hard"
  let origin : Text := if isSymbolic then [] else " => ".toList ++ quoted source
  let failed (reason : Text) : Act Bool :=
    refuse ("failed to create " ++ kind ++ " link " ++ quoted target ++ origin ++ ": " ++ reason)
  let node : Except Text Node ←
    if isSymbolic then pure (.ok (.link (Text.ofRaw source)))
    else
      match ← locateRaw false source with
      | .ok (.present _ node) =>
        if node.isFolder then pure (.error (source ++ ": hard link not allowed for directory"))
        else pure (.ok node)
      | .ok _ =>
        pure (.error ("failed to access " ++ quoted source ++ ": " ++ DiskFault.missing.reason))
      | .error fault =>
        pure (.error ("failed to access " ++ quoted source ++ ": " ++ fault.reason))
  match node with
  | .error message => refuse message
  | .ok node =>
    match ← locateRaw false target with
    | .error fault => failed fault.reason
    | .ok (.vacant folder name) =>
      putNode folder name node
      if given.has 'v' then
        putLine (quoted target ++ (if isSymbolic then " -> " else " => ") ++ quoted source)
      return true
    | .ok (.present location old) =>
      if given.has 'f' ∧ !old.isFolder then
        putNode location.dropLast (location.getLast?.getD []) node
        return true
      else failed "File exists"

/-- Makes links. -/
def ln : Utility := fun _ words =>
  withOptions
    { flags := "sfnrvT", valued := ['t']
      names := [⟨"symbolic", 's', false⟩, ⟨"force", 'f', false⟩, ⟨"verbose", 'v', false⟩] }
    words fun given => do
      match given.operands with
      | [one] => eachTarget (linkOne given) [(one, inFolder ['.'] one)]
      | _ => withTargets given (eachTarget (linkOne given))

/-- Permissions as letters. -/
def modeText (mode : Nat) : Text :=
  let group (bits special : Nat) (letter : Char) : Text :=
    let last : Char :=
      if special = 1 then (if bits % 2 = 1 then letter else letter.toUpper)
      else if bits % 2 = 1 then 'x' else '-'
    [if bits / 4 % 2 = 1 then 'r' else '-', if bits / 2 % 2 = 1 then 'w' else '-', last]
  group (mode / 64 % 8) (mode / 2048 % 2) 's' ++ group (mode / 8 % 8) (mode / 1024 % 2) 's' ++
    group (mode % 8) (mode / 512 % 2) 't'

/-- Four octal digits of permissions. -/
def modeDigits (mode : Nat) : Text :=
  let digits : Text := Nat.toDigits 8 mode
  List.replicate (4 - digits.length) '0' ++ digits

def locationsIn (location : Location) : Node → List (Location × Node)
  | .folder entries => (location, .folder entries) :: ofEntries location entries
  | node => [(location, node)]
where
  /-- The location of everything in the entries of a folder. -/
  ofEntries (location : Location) : List (Text × Node) → List (Location × Node)
    | [] => []
    | (name, node) :: entries =>
      locationsIn (location ++ [name]) node ++ ofEntries location entries

/-- Changes permissions. -/
def chmod : Utility := fun _ words => do
  let isModeWord (word : Text) : Bool :=
    match word with
    | '-' :: c :: _ => "rwxXst".toList.contains c
    | _ => false
  let modeWords := words.filter isModeWord
  let options := words.filter fun word => !isModeWord word
  withOptions
    { flags := "Rvcf"
      names := [⟨"recursive", 'R', false⟩, ⟨"verbose", 'v', false⟩, ⟨"changes", 'c', false⟩] }
    options fun given => do
      let operands := modeWords ++ given.operands
      match operands with
      | [] => misuse "missing operand"
      | [word] => misuse ("missing operand after " ++ quoted word)
      | word :: paths =>
        let mask := (← getProcess).mask
        if (modeOfWord? false mask 0 word).isNone then misuse ("invalid mode: " ++ quoted word)
        else
          let mut status := 0
          for path in paths do
            match ← locateRaw true path with
            | .ok (.present location node) =>
              let all := if given.has 'R' then locationsIn location node else [(location, node)]
              for (location, node) in all do
                let old := modeOf (← get) location node
                let new := (modeOfWord? node.isFolder mask old word).getD old
                setMode location new
                let shown (mode : Nat) : Text := modeDigits mode ++ " (" ++ modeText mode ++ [')']
                if given.has 'v' ∧ old = new then
                  putLine ("mode of " ++ quoted path ++ " retained as " ++ shown old)
                else if given.has 'v' ∨ (given.has 'c' ∧ old ≠ new) then
                  putLine ("mode of " ++ quoted path ++ " changed from " ++ shown old ++ " to " ++
                    shown new)
            | .ok (.vacant _ _) =>
              say ("cannot access " ++ quoted path ++ ": " ++ DiskFault.missing.reason)
              status := 1
            | .error fault =>
              say ("cannot access " ++ quoted path ++ ": " ++ fault.reason)
              status := 1
          return status

/-- Makes a file or a folder with a name that is not used yet. -/
def mktemp : Utility := fun _ words =>
  withOptions
    { flags := "dqtu", valued := ['p']
      names := [⟨"directory", 'd', false⟩, ⟨"dry-run", 'u', false⟩, ⟨"tmpdir", 'p', true⟩] }
    words fun given => do
      let template := given.operands.headD "/tmp/tmp.XXXXXXXXXX"
      let template :=
        match given.value? 'p' with
        | some folder => folder ++ ['/'] ++ lastName template
        | none => template
      let marks := (template.reverse.takeWhile (· = 'X')).length
      if marks < 3 then abort ("too few X's in template " ++ quoted template)
      else
        let machine ← get
        let digits := Text.zeroPadded marks machine.nextId
        let path := template.take (template.length - marks) ++ digits.drop (digits.length - marks)
        set { machine with nextId := machine.nextId + 1 }
        let isFolder := given.has 'd'
        let node : Node := if isFolder then .folder [] else .file (.bytes [])
        let fault? ←
          if given.has 'u' then pure none
          else changeDisk fun disk => disk.create (Text.ofRaw path) node
        match fault?, ← locateRaw true path with
        | some fault, _ =>
          let kind : Text := if isFolder then "directory" else "file"
          abort ("failed to create " ++ kind ++ " via template " ++ quoted template ++ ": " ++
            fault.reason)
        | none, .ok (.present location _) =>
          setMode location (if isFolder then 0o700 else 0o600)
          putLine path
          return 0
        | none, _ =>
          putLine path
          return 0

end Utility

end Shell

end SampleHarvest
