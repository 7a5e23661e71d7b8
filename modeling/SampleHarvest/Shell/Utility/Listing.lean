import SampleHarvest.Shell.Utility.Files

/-!
# Listing files

The names in folders are listed in order, with marks or details. Other utilities tell where a link
leads, or a few facts about a file.
-/

namespace SampleHarvest

namespace Shell

namespace Utility

structure Listed where
  name : Text
  location : Location
  node : Node

def kindLetter (location : Location) : Node → Char
  | .folder _ => 'd'
  | .link _ => 'l'
  | node => if Check.isDevice location node then 'c' else '-'

/-- The mark behind a name that tells what it is. -/
def kindMark (given : Given) (machine : Machine) (listed : Listed) : Text :=
  let letter := kindLetter listed.location listed.node
  if letter = 'd' ∧ (given.has 'F' ∨ given.has 'p') then ['/']
  else if letter = 'l' ∧ given.has 'F' then ['@']
  else if given.has 'F' ∧ letter = '-' ∧
      Nat.land (modeOf machine listed.location listed.node) 0o111 ≠ 0 then ['*']
  else []

/-- How many links lead to a node. -/
def linkCount (node : Node) : Nat :=
  if node.isFolder then 2 + (node.entries.filter fun entry => entry.2.isFolder).length else 1

/-- The blocks that a file takes. -/
def blockCount : Node → Nat
  | .folder _ => 4
  | .link _ => 0
  | node => (Check.sizeOf node + 4095) / 4096 * 4

/-- A text filled up with blanks on the left. -/
def padLeft (width : Nat) (t : Text) : Text := List.replicate (width - t.length) ' ' ++ t

/-- The name of something that is listed, with its mark. -/
def shownName (given : Given) (machine : Machine) (listed : Listed) : Text :=
  let name := if given.has 'Q' then '\x22' :: (listed.name ++ ['\x22']) else listed.name
  let target : Text :=
    match listed.node with
    | .link target => if given.has 'l' then " -> ".toList ++ Text.toRaw target else []
    | _ => []
  let mark := if target.isEmpty then kindMark given machine listed else []
  name ++ mark ++ target

def detailLines (given : Given) (machine : Machine) (all : List Listed) : List Text :=
  let width (value : Listed → Text) : Nat := all.foldl (fun n item => max n (value item).length) 0
  let links (item : Listed) : Text := Text.ofNat (linkCount item.node)
  let size (item : Listed) : Text := Text.ofNat (Check.sizeOf item.node)
  all.map fun item =>
    let mode :=
      match item.node with
      | .link _ => 0o777
      | node => modeOf machine item.location node
    kindLetter item.location item.node :: modeText mode ++ [' '] ++
      padLeft (width links) (links item) ++ " root root " ++ padLeft (width size) (size item) ++
      " Jan  1 00:00 " ++ shownName given machine item

def printList (given : Given) (all : List Listed) : Act Unit := do
  let machine ← get
  let sorted :=
    if given.has 'U' then all
    else if given.has 'S' then
      all.mergeSort fun a b =>
        Check.sizeOf b.node < Check.sizeOf a.node ||
          (Check.sizeOf a.node == Check.sizeOf b.node && Text.le a.name b.name)
    else all.mergeSort fun a b => Text.le a.name b.name
  let sorted := if given.has 'r' then sorted.reverse else sorted
  if given.has 'l' then put (joinLines (detailLines given machine sorted))
  else if given.has 'm' then
    unless sorted.isEmpty do
      putLine (Text.joinWith [',', ' '] (sorted.map (shownName given machine)))
  else put (joinLines (sorted.map (shownName given machine)))

def listedIn (given : Given) (location : Location) (node : Node) : List Listed :=
  let isHidden (name : Text) : Bool := name.head? == some '.'
  let entries := node.entries.filter fun entry =>
    given.has 'a' || given.has 'A' || !isHidden entry.1
  let dots : List Listed :=
    if given.has 'a' then
      [⟨['.'], location, node⟩, ⟨['.', '.'], location.dropLast, .folder []⟩]
    else []
  dots ++ entries.map fun (name, node) => ⟨Text.toRaw name, location ++ [name], node⟩

def pathIn (folder name : Text) : Text :=
  (if Text.endsWith folder "/" then folder else folder ++ ['/']) ++ name

/-- A folder and those below it, with their paths, in the order in which they are listed. -/
def folderTree (given : Given) (path : Text) (location : Location) :
    Node → List (Text × Location × Node)
  | .folder entries =>
    let below := inEntries path location entries
    (path, location, .folder entries) ::
      (below.mergeSort fun a b => Text.le a.1 b.1).flatMap Prod.snd
  | _ => []
where
  /-- The folders of each entry, with the name of the entry. -/
  inEntries (path : Text) (location : Location) :
      List (Text × Node) → List (Text × List (Text × Location × Node))
    | [] => []
    | (name, node) :: entries =>
      let isHidden := name.head? == some '.' && !given.has 'a' && !given.has 'A'
      let raw := Text.toRaw name
      let found := folderTree given (pathIn path raw) (location ++ [name]) node
      (raw, if isHidden then [] else found) :: inEntries path location entries

/-- Lists folders, each with its path above it if that is wanted. -/
def printFolders (given : Given) (isNamed : Bool) : (isFirst : Bool) →
    List (Text × Location × Node) → Act Unit
  | _, [] => return
  | isFirst, (path, location, node) :: folders => do
    unless isFirst do put ['\n']
    if isNamed then putLine (path ++ [':'])
    let all := listedIn given location node
    if given.has 'l' then
      putLine ("total " ++ Text.ofNat (all.foldl (fun n item => n + blockCount item.node) 0))
    printList given all
    printFolders given isNamed false folders

/-- Lists files. -/
def ls : Utility := fun _ words =>
  withOptions
    { flags := "aAbBcCdfFgGhHiklLmnNopqQrRsStuUvxXZ1", valued := "ITw"
      names := [⟨"all", 'a', false⟩, ⟨"almost-all", 'A', false⟩, ⟨"directory", 'd', false⟩,
        ⟨"recursive", 'R', false⟩, ⟨"reverse", 'r', false⟩, ⟨"classify", 'F', false⟩,
        ⟨"quote-name", 'Q', false⟩, ⟨"color", 'G', false⟩] }
    (words.filter fun word => !Text.startsWith word "--color=") (fun given => do
      let operands := if given.operands.isEmpty then [['.']] else given.operands
      let keepsLinks := given.has 'l' || given.has 'd' || given.has 'F'
      let mut status := 0
      let mut plain : List Listed := []
      let mut folders : List (Text × Location × Node) := []
      for operand in operands do
        let follows := !keepsLinks || Text.endsWith operand "/"
        match ← locateRaw follows operand with
        | .ok (.present location node) =>
          if node.isFolder ∧ !given.has 'd' then folders := folders ++ [(operand, location, node)]
          else plain := plain ++ [⟨operand, location, node⟩]
        | other =>
          let fault := match other with
            | .error fault => fault
            | .ok _ => .missing
          match ← locateRaw false operand, fault with
          | .ok (.present location node), .missing =>
            plain := plain ++ [⟨operand, location, node⟩]
          | _, _ =>
            say ("cannot access " ++ quoted operand ++ ": " ++ fault.reason)
            status := 2
      unless plain.isEmpty do printList given plain
      let sorted := folders.mergeSort fun a b => Text.le a.1 b.1
      let sorted := if given.has 'r' then sorted.reverse else sorted
      let all := if given.has 'R' then
        sorted.flatMap fun (path, location, node) => folderTree given path location node else sorted
      let isNamed := 1 < operands.length || given.has 'R'
      printFolders given isNamed plain.isEmpty all
      return status) 2

/-- Prints where links lead. -/
def readlink : Utility := fun _ words =>
  withOptions
    { flags := "efmnqsvz"
      names := [⟨"canonicalize", 'f', false⟩, ⟨"canonicalize-existing", 'e', false⟩,
        ⟨"canonicalize-missing", 'm', false⟩, ⟨"no-newline", 'n', false⟩] }
    words fun given => do
      if given.operands.isEmpty then misuse "missing operand"
      else
        let mut status := 0
        for operand in given.operands do
          let isWhole := given.has 'f' || given.has 'e' || given.has 'm'
          let found? : Option Text :=
            match ← locateRaw isWhole operand with
            | .ok (.present location node) =>
              if isWhole then some (Text.toRaw (pathOf location))
              else
                match node with
                | .link target => some (Text.toRaw target)
                | _ => none
            | .ok (.vacant folder name) =>
              if isWhole ∧ !given.has 'e' then some (Text.toRaw (pathOf (folder ++ [name])))
              else none
            | .error _ => none
          match found? with
          | some path => put (if given.has 'n' then path else path ++ ['\n'])
          | none => status := 1
        return status

/-- Prints paths without links and dots. -/
def realpath : Utility := fun _ words =>
  withOptions
    { flags := "eLmPqsz", valued := []
      names := [⟨"canonicalize-existing", 'e', false⟩, ⟨"canonicalize-missing", 'm', false⟩] }
    words fun given => do
      if given.operands.isEmpty then misuse "missing operand"
      else
        let mut status := 0
        for operand in given.operands do
          let fault? : Option DiskFault ←
            match ← locateRaw true operand with
            | .ok (.present location _) =>
              putLine (Text.toRaw (pathOf location))
              pure none
            | .ok (.vacant folder name) =>
              if given.has 'e' then pure (some .missing)
              else
                putLine (Text.toRaw (pathOf (folder ++ [name])))
                pure none
            | .error fault => pure (some fault)
          match fault? with
          | some fault =>
            say (operand ++ ": " ++ fault.reason)
            status := 1
          | none => pure ()
        return status

/-- What a letter behind a percent sign stands for. -/
def factText (machine : Machine) (path : Text) (location : Location) (node : Node) : Char → Text
  | 'n' => path
  | 's' => Text.ofNat (Check.sizeOf node)
  | 'a' => Nat.toDigits 8 (modeOf machine location node)
  | 'A' => kindLetter location node :: modeText (modeOf machine location node)
  | 'U' => ['r', 'o', 'o', 't']
  | 'G' => ['r', 'o', 'o', 't']
  | 'u' => ['0']
  | 'g' => ['0']
  | 'h' => Text.ofNat (linkCount node)
  | 'F' =>
    match kindLetter location node with
    | 'd' => "directory"
    | 'l' => "symbolic link"
    | 'c' => "character special file"
    | _ => if Check.sizeOf node = 0 then "regular empty file" else "regular file"
  | '%' => ['%']
  | _ => ['?']

/-- A format with facts put in. -/
def fillFacts (fact : Char → Text) : Text → Text
  | '%' :: c :: t => fact c ++ fillFacts fact t
  | '\\' :: 'n' :: t => '\\' :: 'n' :: fillFacts fact t
  | c :: t => c :: fillFacts fact t
  | [] => []

/-- Prints facts about files. -/
def stat : Utility := fun _ words =>
  withOptions
    { flags := "Lft", valued := ['c']
      names := [⟨"format", 'c', true⟩, ⟨"printf", 'p', true⟩, ⟨"dereference", 'L', false⟩] }
    words fun given => do
      if given.operands.isEmpty then misuse "missing operand"
      else
        let mut status := 0
        for operand in given.operands do
          match ← locateRaw (given.has 'L') operand with
          | .ok (.present location node) =>
            let fact := factText (← get) operand location node
            match given.value? 'p', given.value? 'c' with
            | some format, _ =>
              put (unescape .format (format.length + 1) (fillFacts fact format)).1
            | none, some format => putLine (fillFacts fact format)
            | none, none => putLine ("  File: " ++ operand)
          | other =>
            let fault := match other with
              | .error fault => fault
              | .ok _ => .missing
            say ("cannot statx " ++ quoted operand ++ ": " ++ fault.reason)
            status := 1
        return status

end Utility

end Shell

end SampleHarvest
