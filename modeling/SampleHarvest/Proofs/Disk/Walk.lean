import SampleHarvest.Proofs.Disk.Look

/-!
# Where paths lead

A path that leads to a folder leads there still when folders and links stay, and what follows in a
longer path is followed from there. Where no links stand, names lead straight down.
-/

namespace SampleHarvest

namespace Disk

variable {root : Node} {follows : Bool} {here location : Location} {part : Text}
  {parts rest : List Text}

/-- A part that leads down, and is not too long for it. -/
def IsName (part : Text) : Prop :=
  ¬Path.isIdlePart part ∧ part ≠ ".." ∧ ¬maxNameSize < Utf8.size part

/-- A part is idle, leads up, is too long or is a name. -/
theorem part_cases (part : Text) :
    Path.isIdlePart part ∨ part = ".." ∨
      (¬Path.isIdlePart part ∧ part ≠ ".." ∧ maxNameSize < Utf8.size part) ∨ IsName part := by
  by_cases hidle : Path.isIdlePart part
  · exact Or.inl hidle
  by_cases hup : part = ".."
  · exact Or.inr (Or.inl hup)
  by_cases hsize : maxNameSize < Utf8.size part
  · exact Or.inr (Or.inr (Or.inl ⟨hidle, hup, hsize⟩))
  · exact Or.inr (Or.inr (Or.inr ⟨hidle, hup, hsize⟩))

/-- The parts of a path that add a component. -/
def namesOf (parts : List Text) : Location := parts.filter fun part => !Path.isIdlePart part

theorem namesOf_append (front back : List Text) :
    namesOf (front ++ back) = namesOf front ++ namesOf back :=
  List.filter_append _ _

theorem namesOf_cons_idle (h : Path.isIdlePart part) (rest : List Text) :
    namesOf (part :: rest) = namesOf rest :=
  List.filter_cons_of_neg (by simp [h])

theorem namesOf_cons_name (h : ¬Path.isIdlePart part) (rest : List Text) :
    namesOf (part :: rest) = part :: namesOf rest :=
  List.filter_cons_of_pos (by simp [h])

theorem namesOf_eq_nil (h : parts.all List.isEmpty) : namesOf parts = [] := by
  refine List.filter_eq_nil_iff.mpr fun part hpart => ?_
  have hempty := List.all_eq_true.mp h part hpart
  simp [Path.isIdlePart, hempty]

/-! ### One part -/

theorem steps_nil (root : Node) (follows : Bool) (here : Location) :
    steps root follows here [] =
      match root.get? here with
      | some node => .ok (.arrived here node)
      | none => .error .missing :=
  rfl

theorem steps_cons (root : Node) (follows : Bool) (here : Location) (part : Text)
    (rest : List Text) :
    steps root follows here (part :: rest) =
      if Path.isIdlePart part then steps root follows here rest
      else if part = ".." then steps root follows here.dropLast rest
      else if maxNameSize < Utf8.size part then .error .nameTooLong
      else
        match root.get? (here ++ [part]) with
        | none => if rest.all List.isEmpty then .ok (.absent here part) else .error .missing
        | some (.folder _) => steps root follows (here ++ [part]) rest
        | some (.link target) =>
          if rest.all List.isEmpty ∧ !follows then .ok (.arrived (here ++ [part]) (.link target))
          else .ok (.ofLink here target rest)
        | some (.file content) =>
          if rest.isEmpty then .ok (.arrived (here ++ [part]) (.file content))
          else .error .notFolder :=
  rfl

theorem steps_idle (h : Path.isIdlePart part) :
    steps root follows here (part :: rest) = steps root follows here rest := by
  rw [steps_cons, if_pos h]

theorem steps_up :
    steps root follows here (".." :: rest) = steps root follows here.dropLast rest := by
  rw [steps_cons, if_neg (by decide), if_pos rfl]

theorem steps_long (hidle : ¬Path.isIdlePart part) (hup : part ≠ "..")
    (hsize : maxNameSize < Utf8.size part) :
    steps root follows here (part :: rest) = .error .nameTooLong := by
  rw [steps_cons, if_neg hidle, if_neg hup, if_pos hsize]

/-- A name leads on by what stands there. -/
theorem steps_name (follows : Bool) (here : Location) (rest : List Text) (h : IsName part) :
    steps root follows here (part :: rest) =
      match root.look (here ++ [part]) with
      | .nothing => if rest.all List.isEmpty then .ok (.absent here part) else .error .missing
      | .folder => steps root follows (here ++ [part]) rest
      | .link target =>
        if rest.all List.isEmpty ∧ !follows then .ok (.arrived (here ++ [part]) (.link target))
        else .ok (.ofLink here target rest)
      | .file content =>
        if rest.isEmpty then .ok (.arrived (here ++ [part]) (.file content))
        else .error .notFolder := by
  obtain ⟨hidle, hup, hsize⟩ := h
  rw [steps_cons, if_neg hidle, if_neg hup, if_neg hsize, Node.look]
  cases root.get? (here ++ [part]) with
  | none => rfl
  | some node => cases node <;> rfl

theorem steps_nothing (follows : Bool) (rest : List Text) (h : IsName part)
    (hlook : root.look (here ++ [part]) = .nothing) :
    steps root follows here (part :: rest) =
      if rest.all List.isEmpty then .ok (.absent here part) else .error .missing := by
  rw [steps_name follows here rest h, hlook]

theorem steps_folder (h : IsName part) (hlook : root.look (here ++ [part]) = .folder) :
    steps root follows here (part :: rest) = steps root follows (here ++ [part]) rest := by
  rw [steps_name follows here rest h, hlook]

theorem steps_link {target : Path} (h : IsName part)
    (hlook : root.look (here ++ [part]) = .link target) :
    steps root follows here (part :: rest) =
      if rest.all List.isEmpty ∧ !follows then .ok (.arrived (here ++ [part]) (.link target))
      else .ok (.ofLink here target rest) := by
  rw [steps_name follows here rest h, hlook]

theorem steps_link_followed {target : Path} (h : IsName part)
    (hlook : root.look (here ++ [part]) = .link target) :
    steps root true here (part :: rest) =
      .ok (.redirected (if Path.isAbsolute target then [] else here)
        (Text.splitOn '/' target ++ rest)) := by
  rw [steps_link h hlook, if_neg (by simp), Step.ofLink]

theorem steps_file {content : Content} (follows : Bool) (rest : List Text) (h : IsName part)
    (hlook : root.look (here ++ [part]) = .file content) :
    steps root follows here (part :: rest) =
      if rest.isEmpty then .ok (.arrived (here ++ [part]) (.file content))
      else .error .notFolder := by
  rw [steps_name follows here rest h, hlook]

theorem walk_eq (root : Node) (follows : Bool) (links : Nat) (here : Location)
    (parts : List Text) :
    walk root follows links here parts =
      match steps root follows here parts with
      | .error fault => .error fault
      | .ok (.arrived location node) => .ok (.present location node)
      | .ok (.absent folder name) => .ok (.vacant folder name)
      | .ok (.redirected folder parts) =>
        match links with
        | 0 => .error .tooManyLinks
        | links + 1 => walk root follows links folder parts :=
  walk.eq_def root follows links here parts

theorem walk_error {links : Nat} {fault : DiskFault}
    (h : steps root follows here parts = .error fault) :
    walk root follows links here parts = .error fault := by
  rw [walk_eq, h]

theorem walk_arrived {links : Nat} {node : Node}
    (h : steps root follows here parts = .ok (.arrived location node)) :
    walk root follows links here parts = .ok (.present location node) := by
  rw [walk_eq, h]

theorem walk_absent {links : Nat} {folder : Location} {name : Text}
    (h : steps root follows here parts = .ok (.absent folder name)) :
    walk root follows links here parts = .ok (.vacant folder name) := by
  rw [walk_eq, h]

theorem walk_zero {folder : Location}
    (h : steps root follows here parts = .ok (.redirected folder rest)) :
    walk root follows 0 here parts = .error .tooManyLinks := by
  rw [walk_eq, h]

theorem walk_succ {links : Nat} {folder : Location}
    (h : steps root follows here parts = .ok (.redirected folder rest)) :
    walk root follows (links + 1) here parts = walk root follows links folder rest := by
  rw [walk_eq, h]

theorem walk_of_steps {links : Nat} {here' : Location} {parts' : List Text}
    (h : steps root follows here parts = steps root follows here' parts') :
    walk root follows links here parts = walk root follows links here' parts' := by
  rw [walk_eq, h, ← walk_eq]

/-- That a file holds no text is found out by reading it, not on the way to it. -/
theorem steps_ne_notText (root : Node) (follows : Bool) (here : Location) (parts : List Text) :
    steps root follows here parts ≠ .error .notText := by
  induction parts generalizing here with
  | nil =>
      rw [steps_nil]
      split <;> nofun
  | cons part rest ih =>
      rcases part_cases part with hidle | rfl | ⟨hidle, hup, hsize⟩ | hname
      · rw [steps_idle hidle]
        exact ih here
      · rw [steps_up]
        exact ih here.dropLast
      · rw [steps_long hidle hup hsize]
        nofun
      cases hlook : root.look (here ++ [part]) with
      | nothing =>
          rw [steps_nothing follows rest hname hlook]
          split_ifs <;> nofun
      | folder =>
          rw [steps_folder hname hlook]
          exact ih (here ++ [part])
      | link target =>
          rw [steps_link hname hlook]
          split_ifs <;> nofun
      | file content =>
          rw [steps_file follows rest hname hlook]
          split_ifs <;> nofun

theorem walk_ne_notText (root : Node) (follows : Bool) (links : Nat) (here : Location)
    (parts : List Text) : walk root follows links here parts ≠ .error .notText := by
  induction links generalizing here parts with
  | zero | succ links ih =>
      rw [walk_eq]
      have hsteps := steps_ne_notText root follows here parts
      split
      · next fault hfault =>
          rw [hfault] at hsteps
          rintro ⟨⟩
          exact hsteps rfl
      · nofun
      · nofun
      · first
        | exact ih _ _
        | nofun

/-- Where nothing stands, a path can only end. -/
theorem walk_nothing {links : Nat} {place : Place} (hname : IsName part)
    (hlook : root.look (here ++ [part]) = .nothing)
    (h : walk root follows links here (part :: rest) = .ok place) :
    rest.all List.isEmpty ∧ place = .vacant here part := by
  have hsteps := steps_nothing follows rest hname hlook
  split_ifs at hsteps with hempty
  · rw [walk_absent hsteps] at h
    exact ⟨hempty, (Except.ok.inj h).symm⟩
  · rw [walk_error hsteps] at h
    cases h

/-- At a file, a path can only end. -/
theorem walk_file {links : Nat} {place : Place} {content : Content} (hname : IsName part)
    (hlook : root.look (here ++ [part]) = .file content)
    (h : walk root follows links here (part :: rest) = .ok place) :
    rest = [] ∧ place = .present (here ++ [part]) (.file content) := by
  have hsteps := steps_file follows rest hname hlook
  split_ifs at hsteps with hempty
  · rw [walk_arrived hsteps] at h
    exact ⟨List.isEmpty_iff.mp hempty, (Except.ok.inj h).symm⟩
  · rw [walk_error hsteps] at h
    cases h

/-! ### Arriving -/

/-- From here these parts arrive at a place, over at most so many links. -/
inductive Arrives (root : Node) (follows : Bool) : Nat → Location → List Text → Place → Prop
  | here {links : Nat} {here : Location} {node : Node} (hget : root.get? here = some node) :
      Arrives root follows links here [] (.present here node)
  | idle {links : Nat} {here : Location} {part : Text} {rest : List Text} {place : Place}
      (hidle : Path.isIdlePart part) (hrest : Arrives root follows links here rest place) :
      Arrives root follows links here (part :: rest) place
  | up {links : Nat} {here : Location} {rest : List Text} {place : Place}
      (hrest : Arrives root follows links here.dropLast rest place) :
      Arrives root follows links here (".." :: rest) place
  /-- A name under which nothing stands comes last, but for slashes. -/
  | absent {links : Nat} {here : Location} {part : Text} {rest : List Text} (hname : IsName part)
      (hlook : root.look (here ++ [part]) = .nothing) (hrest : rest.all List.isEmpty) :
      Arrives root follows links here (part :: rest) (.vacant here part)
  | down {links : Nat} {here : Location} {part : Text} {rest : List Text} {place : Place}
      (hname : IsName part) (hlook : root.look (here ++ [part]) = .folder)
      (hrest : Arrives root follows links (here ++ [part]) rest place) :
      Arrives root follows links here (part :: rest) place
  | file {links : Nat} {here : Location} {part : Text} {content : Content} (hname : IsName part)
      (hlook : root.look (here ++ [part]) = .file content) :
      Arrives root follows links here [part] (.present (here ++ [part]) (.file content))
  /-- The name of a link is not followed if it comes last, but for slashes. -/
  | stop {links : Nat} {here : Location} {part : Text} {rest : List Text} {target : Path}
      (hname : IsName part) (hlook : root.look (here ++ [part]) = .link target)
      (hrest : rest.all List.isEmpty) (hfollows : follows = false) :
      Arrives root follows links here (part :: rest) (.present (here ++ [part]) (.link target))
  | link {links : Nat} {here : Location} {part : Text} {rest : List Text} {target : Path}
      {place : Place} (hname : IsName part) (hlook : root.look (here ++ [part]) = .link target)
      (hgoes : ¬(rest.all List.isEmpty ∧ !follows))
      (hrest : Arrives root follows links (if Path.isAbsolute target then [] else here)
        (Text.splitOn '/' target ++ rest) place) :
      Arrives root follows (links + 1) here (part :: rest) place

theorem arrives_of_walk {links : Nat} {place : Place}
    (h : walk root follows links here parts = .ok place) :
    Arrives root follows links here parts place := by
  -- A link leads on with fewer links left; all other parts make the path shorter.
  induction links generalizing here parts with
  | zero | succ links ih =>
      induction parts generalizing here with
      | nil =>
          cases hget : root.get? here with
          | none =>
              rw [walk_error (by rw [steps_nil, hget])] at h
              cases h
          | some node =>
              rw [walk_arrived (by rw [steps_nil, hget])] at h
              cases h
              exact .here hget
      | cons part rest ihrest =>
          rcases part_cases part with hidle | rfl | ⟨hidle, hup, hsize⟩ | hname
          · rw [walk_of_steps (steps_idle hidle)] at h
            exact .idle hidle (ihrest h)
          · rw [walk_of_steps steps_up] at h
            exact .up (ihrest h)
          · rw [walk_error (steps_long hidle hup hsize)] at h
            cases h
          cases hlook : root.look (here ++ [part]) with
          | nothing =>
              obtain ⟨hempty, rfl⟩ := walk_nothing hname hlook h
              exact .absent hname hlook hempty
          | file content =>
              obtain ⟨rfl, rfl⟩ := walk_file hname hlook h
              exact .file hname hlook
          | folder =>
              rw [walk_of_steps (steps_folder hname hlook)] at h
              exact .down hname hlook (ihrest h)
          | link target =>
              have hsteps : steps root follows here (part :: rest) = _ := steps_link hname hlook
              split_ifs at hsteps with hgoes
              · rw [walk_arrived hsteps] at h
                cases h
                exact .stop hname hlook hgoes.1 (by simpa using hgoes.2)
              · first
                | rw [walk_succ hsteps] at h
                  exact .link hname hlook hgoes (ih h)
                | rw [walk_zero hsteps] at h
                  cases h

/-- What is found at a place stands there. -/
theorem Arrives.get? {links : Nat} {node : Node}
    (h : Arrives root follows links here parts (.present location node)) :
    root.get? location = some node := by
  generalize hplace : Place.present location node = place at h
  induction h with
  | here hget => cases hplace; exact hget
  | idle _ _ ih | up _ ih | down _ _ _ ih | link _ _ _ _ ih => exact ih hplace
  | absent => cases hplace
  | file _ hlook => cases hplace; exact Node.look_eq_file_iff.mp hlook
  | stop _ hlook => cases hplace; exact Node.look_eq_link_iff.mp hlook

/-- Nothing stands where there is room. -/
theorem Arrives.look {links : Nat} {folder : Location} {name : Text}
    (h : Arrives root follows links here parts (.vacant folder name)) :
    root.look (folder ++ [name]) = .nothing := by
  generalize hplace : Place.vacant folder name = place at h
  induction h with
  | here | file | stop => cases hplace
  | idle _ _ ih | up _ ih | down _ _ _ ih | link _ _ _ _ ih => exact ih hplace
  | absent _ hlook => cases hplace; exact hlook

/-! ### Leading to a folder -/

/-- From here these parts lead to the folder at a location, over at most so many links. -/
inductive LeadsTo (root : Node) (location : Location) : Nat → Location → List Text → Prop
  | done {links : Nat} (hlook : root.look location = .folder) :
      LeadsTo root location links location []
  | idle {links : Nat} {here : Location} {part : Text} {rest : List Text}
      (hidle : Path.isIdlePart part) (hrest : LeadsTo root location links here rest) :
      LeadsTo root location links here (part :: rest)
  | up {links : Nat} {here : Location} {rest : List Text}
      (hrest : LeadsTo root location links here.dropLast rest) :
      LeadsTo root location links here (".." :: rest)
  | down {links : Nat} {here : Location} {part : Text} {rest : List Text} (hname : IsName part)
      (hlook : root.look (here ++ [part]) = .folder)
      (hrest : LeadsTo root location links (here ++ [part]) rest) :
      LeadsTo root location links here (part :: rest)
  /-- The name of a link leads to where it points. -/
  | link {links : Nat} {here : Location} {part : Text} {rest : List Text} {target : Path}
      (hname : IsName part) (hlook : root.look (here ++ [part]) = .link target)
      (hrest : LeadsTo root location links (if Path.isAbsolute target then [] else here)
        (Text.splitOn '/' target ++ rest)) :
      LeadsTo root location (links + 1) here (part :: rest)

theorem leadsTo_of_walk {links : Nat} {entries : List (Text × Node)}
    (h : walk root true links here parts = .ok (.present location (.folder entries))) :
    LeadsTo root location links here parts := by
  have harrives := arrives_of_walk h
  generalize hplace : Place.present location (.folder entries) = place at harrives
  clear h
  induction harrives with
  | here hget =>
      cases hplace
      exact .done (Node.look_eq_folder_iff.mpr ⟨entries, hget⟩)
  | idle hidle _ ih => exact .idle hidle (ih hplace)
  | up _ ih => exact .up (ih hplace)
  | down hname hlook _ ih => exact .down hname hlook (ih hplace)
  | link hname hlook _ _ ih => exact .link hname hlook (ih hplace)
  | absent | file | stop => cases hplace

theorem LeadsTo.look {links : Nat} (h : LeadsTo root location links here parts) :
    root.look location = .folder := by
  induction h with
  | done hlook => exact hlook
  | idle _ _ ih | up _ ih | down _ _ _ ih | link _ _ _ ih => exact ih

/-- What follows behind parts that lead to a folder is followed from there. -/
theorem LeadsTo.walk_append {links : Nat} (h : LeadsTo root location links here parts)
    (back : List Text) :
    ∃ left, walk root true links here (parts ++ back) = walk root true left location back := by
  induction h with
  | done => exact ⟨_, rfl⟩
  | idle hidle _ ih =>
      rw [List.cons_append, walk_of_steps (steps_idle hidle)]
      exact ih
  | up _ ih =>
      rw [List.cons_append, walk_of_steps steps_up]
      exact ih
  | down hname hlook _ ih =>
      rw [List.cons_append, walk_of_steps (steps_folder hname hlook)]
      exact ih
  | link hname hlook _ ih =>
      obtain ⟨left, hleft⟩ := ih
      refine ⟨left, ?_⟩
      rw [← hleft, List.cons_append, List.append_assoc, walk_succ (steps_link_followed hname hlook)]

/-- Where parts lead to a folder, those behind them arrive from there, unless they are only
slashes. -/
theorem LeadsTo.arrives_append {links : Nat} {back : List Text} {place : Place}
    (h : LeadsTo root location links here parts) (hne : ¬back.all List.isEmpty)
    (hback : ∀ left, Arrives root follows left location back place) :
    Arrives root follows links here (parts ++ back) place := by
  induction h with
  | done => exact hback _
  | idle hidle _ ih => exact .idle hidle ih
  | up _ ih => exact .up ih
  | down hname hlook _ ih => exact .down hname hlook ih
  | link hname hlook _ ih =>
      rw [List.append_assoc] at ih
      rw [List.cons_append]
      refine .link hname hlook (fun hends => hne ?_) ih
      rw [List.all_append, Bool.and_eq_true] at hends
      exact hends.1.2

theorem get?_of_walk {links : Nat} {entries : List (Text × Node)}
    (h : walk root true links here parts = .ok (.present location (.folder entries))) :
    root.get? location = some (.folder entries) :=
  (arrives_of_walk h).get?

theorem LeadsTo.append {links : Nat} {last : Location} {back : List Text}
    (h : LeadsTo root location links here parts)
    (hback : ∀ left, LeadsTo root last left location back) :
    LeadsTo root last links here (parts ++ back) := by
  induction h with
  | done => exact hback _
  | idle hidle _ ih => exact .idle hidle ih
  | up _ ih => exact .up ih
  | down hname hlook _ ih => exact .down hname hlook ih
  | link hname hlook _ ih =>
      rw [List.append_assoc] at ih
      exact .link hname hlook ih

theorem LeadsTo.walk {links : Nat} (h : LeadsTo root location links here parts) :
    ∃ entries, walk root true links here parts = .ok (.present location (.folder entries)) := by
  obtain ⟨entries, hget⟩ := Node.look_eq_folder_iff.mp h.look
  obtain ⟨left, hleft⟩ := h.walk_append []
  refine ⟨entries, ?_⟩
  rw [List.append_nil] at hleft
  rw [hleft, walk_arrived (by rw [steps_nil, hget])]

/-- Parts lead to one folder. -/
theorem LeadsTo.unique {links : Nat} {other : Location}
    (h : LeadsTo root location links here parts) (h' : LeadsTo root other links here parts) :
    location = other := by
  obtain ⟨entries, hwalk⟩ := h.walk
  obtain ⟨entries', hwalk'⟩ := h'.walk
  cases hwalk.symm.trans hwalk'
  rfl

/-- Every folder and every link of one tree is in the other one too. -/
def Keeps (old new : Node) : Prop :=
  ∀ location, (old.look location = .folder → new.look location = .folder) ∧
    ∀ target, old.look location = .link target → new.look location = .link target

theorem Keeps.trans {old between new : Node} (h : Keeps old between) (h' : Keeps between new) :
    Keeps old new := fun location =>
  ⟨fun hfolder => (h' location).1 ((h location).1 hfolder),
    fun target hlink => (h' location).2 target ((h location).2 target hlink)⟩

/-- A path that leads to a folder leads there still when folders and links stay. -/
theorem LeadsTo.keeps {new : Node} {links : Nat} (hkeeps : Keeps root new)
    (h : LeadsTo root location links here parts) : LeadsTo new location links here parts := by
  induction h with
  | done hlook => exact .done ((hkeeps _).1 hlook)
  | idle hidle _ ih => exact .idle hidle ih
  | up _ ih => exact .up ih
  | down hname hlook _ ih => exact .down hname ((hkeeps _).1 hlook) ih
  | link hname hlook _ ih => exact .link hname ((hkeeps _).2 _ hlook) ih

/-! ### Straight down -/

/-- Whether a walk ended at a location, where something or nothing stands. -/
inductive EndsAt (root : Node) : Location → Place → Prop
  | present {location : Location} {node : Node} (hget : root.get? location = some node) :
      EndsAt root location (.present location node)
  | vacant {folder : Location} {name : Text} (hfolder : root.look folder = .folder)
      (hnothing : root.look (folder ++ [name]) = .nothing) :
      EndsAt root (folder ++ [name]) (.vacant folder name)

theorem EndsAt.present_eq {last : Location} {node : Node}
    (h : EndsAt root location (.present last node)) : last = location := by
  cases h
  rfl

theorem EndsAt.vacant_eq {folder : Location} {name : Text}
    (h : EndsAt root location (.vacant folder name)) : folder ++ [name] = location := by
  generalize hplace : Place.vacant folder name = place at h
  cases h with
  | present => cases hplace
  | vacant => cases hplace; rfl

/-- Where no links stand, parts without dots that arrive end at the location of their names. -/
theorem Arrives.endsAt {links : Nat} {place : Place} (hup : (".." : Text) ∉ parts)
    (hhere : root.look here = .folder)
    (hlinks : ∀ front, front ≠ [] → front <+: namesOf parts →
      ∀ target, root.look (here ++ front) ≠ .link target)
    (h : Arrives root follows links here parts place) :
    EndsAt root (here ++ namesOf parts) place ∧ ∀ part ∈ namesOf parts, IsName part := by
  induction h with
  | here hget =>
      rw [namesOf, List.filter_nil, List.append_nil]
      exact ⟨.present hget, nofun⟩
  | idle hidle _ ih =>
      rw [namesOf_cons_idle hidle] at hlinks ⊢
      exact ih (mt (List.mem_cons_of_mem _) hup) hhere hlinks
  | up => exact absurd List.mem_cons_self hup
  | absent hname hlook hrest =>
      rw [namesOf_cons_name hname.1, namesOf_eq_nil hrest]
      exact ⟨.vacant hhere hlook, fun name hmem => List.mem_singleton.mp hmem ▸ hname⟩
  | file hname hlook =>
      rw [namesOf_cons_name hname.1, namesOf, List.filter_nil]
      exact ⟨.present (Node.look_eq_file_iff.mp hlook),
        fun name hmem => List.mem_singleton.mp hmem ▸ hname⟩
  | stop hname hlook | link hname hlook =>
      rw [namesOf_cons_name hname.1] at hlinks
      refine absurd hlook (hlinks [_] (List.cons_ne_nil _ _) ?_ _)
      exact List.cons_prefix_cons.mpr ⟨rfl, List.nil_prefix⟩
  | @down links here part rest place hname hlook _ ih =>
      rw [namesOf_cons_name hname.1] at hlinks ⊢
      obtain ⟨hends, hnames⟩ := ih (mt (List.mem_cons_of_mem _) hup) hlook
        (fun front _ hprefix target => by
          rw [List.append_assoc]
          exact hlinks (part :: front) (List.cons_ne_nil _ _)
            (List.cons_prefix_cons.mpr ⟨rfl, hprefix⟩) target)
      rw [List.append_assoc] at hends
      refine ⟨hends, fun name hmem => ?_⟩
      rcases List.mem_cons.mp hmem with rfl | hmem
      · exact hname
      · exact hnames name hmem

theorem leadsTo_names (links : Nat) (hnames : ∀ part ∈ namesOf parts, IsName part)
    (hlook : root.look (here ++ namesOf parts) = .folder) :
    LeadsTo root (here ++ namesOf parts) links here parts := by
  induction parts generalizing here with
  | nil =>
      rw [namesOf, List.filter_nil, List.append_nil] at hlook ⊢
      exact .done hlook
  | cons part rest ih =>
      by_cases hidle : Path.isIdlePart part
      · rw [namesOf_cons_idle hidle] at hnames hlook ⊢
        exact .idle hidle (ih hnames hlook)
      · rw [namesOf_cons_name hidle, List.append_cons] at hlook ⊢
        rw [namesOf_cons_name hidle] at hnames
        have hpart : root.look (here ++ [part]) = .folder := by
          by_cases hrest : namesOf rest = []
          · rw [hrest, List.append_nil] at hlook
            exact hlook
          · exact Node.look_above (by rw [hlook]; nofun) hrest
        exact .down (hnames part List.mem_cons_self) hpart
          (ih (fun name hmem => hnames name (List.mem_cons_of_mem _ hmem)) hlook)

/-- Names lead down to a file. -/
theorem walk_to_file {links : Nat} {last : Text} {content : Content}
    (hnames : ∀ part ∈ namesOf (parts ++ [last]), IsName part) (hlast : ¬Path.isIdlePart last)
    (hlook : root.look (here ++ namesOf (parts ++ [last])) = .file content) :
    walk root true links here (parts ++ [last]) =
      .ok (.present (here ++ namesOf (parts ++ [last])) (.file content)) := by
  have happend : namesOf (parts ++ [last]) = namesOf parts ++ [last] := by
    rw [namesOf_append, namesOf_cons_name hlast]
    rfl
  rw [happend] at hnames hlook ⊢
  rw [← List.append_assoc] at hlook ⊢
  have hfolder := Node.look_above (by rw [hlook]; nofun) (List.cons_ne_nil last [])
  have hleads := leadsTo_names links
    (fun part hmem => hnames part (List.mem_append_left _ hmem)) hfolder
  obtain ⟨left, hleft⟩ := hleads.walk_append [last]
  have hsteps := steps_file true []
    (hnames last (List.mem_append_right _ (List.mem_singleton_self _))) hlook
  rw [hleft, walk_arrived hsteps]

/-! ### What is made where a path ends -/

section Making

variable {root' : Node} {links : Nat} {folder : Location} {name : Text}

/-- Parts that end where there is room lead to the folder that is made there. -/
theorem Arrives.leadsTo (hkeeps : Keeps root root') (hmade : root'.look (folder ++ [name]) = .folder)
    (h : Arrives root follows links here parts (.vacant folder name)) :
    LeadsTo root' (folder ++ [name]) links here parts := by
  generalize hvacant : Place.vacant folder name = place at h
  induction h with
  | here | file | stop => cases hvacant
  | idle hidle _ ih => exact .idle hidle (ih hvacant)
  | up _ ih => exact .up (ih hvacant)
  | down hname hlook _ ih => exact .down hname ((hkeeps _).1 hlook) (ih hvacant)
  | link hname hlook _ _ ih => exact .link hname ((hkeeps _).2 _ hlook) (ih hvacant)
  | @absent links here part rest hname _ hrest =>
      cases hvacant
      have hnone : namesOf rest = [] := namesOf_eq_nil hrest
      have hrest : LeadsTo root' (folder ++ [name] ++ namesOf rest) links (folder ++ [name]) rest :=
        leadsTo_names links (by rw [hnone]; nofun) (by rw [hnone, List.append_nil]; exact hmade)
      rw [hnone, List.append_nil] at hrest
      exact .down hname hmade hrest

theorem Arrives.walk {place : Place} (h : Arrives root follows links here parts place) :
    walk root follows links here parts = .ok place := by
  induction h with
  | here hget => exact walk_arrived (by rw [steps_nil, hget])
  | idle hidle _ ih => rw [walk_of_steps (steps_idle hidle), ih]
  | up _ ih => rw [walk_of_steps steps_up, ih]
  | absent hname hlook hrest => exact walk_absent (by rw [steps_nothing _ _ hname hlook, if_pos hrest])
  | down hname hlook _ ih => rw [walk_of_steps (steps_folder hname hlook), ih]
  | file hname hlook => exact walk_arrived (by rw [steps_file _ _ hname hlook]; rfl)
  | stop hname hlook hrest hfollows =>
      exact walk_arrived (by rw [steps_link hname hlook, if_pos ⟨hrest, by simp [hfollows]⟩])
  | link hname hlook hgoes _ ih =>
      have hsteps : steps _ _ _ _ = _ := (steps_link hname hlook).trans (if_neg hgoes)
      rw [walk_succ hsteps, ih]

/-- Parts that lead to a file lead there still when folders and links stay and the file does. -/
theorem Arrives.keeps_file {content content' : Content} (hkeeps : Keeps root root')
    (hfile : root'.look location = .file content')
    (h : Arrives root follows links here parts (.present location (.file content))) :
    Arrives root' follows links here parts (.present location (.file content')) := by
  generalize hplace : Place.present location (.file content) = place at h
  induction h with
  | here =>
      cases hplace
      exact .here (Node.look_eq_file_iff.mp hfile)
  | idle hidle _ ih => exact .idle hidle (ih hplace)
  | up _ ih => exact .up (ih hplace)
  | absent | stop => cases hplace
  | down hname hlook _ ih => exact .down hname ((hkeeps _).1 hlook) (ih hplace)
  | file hname =>
      cases hplace
      exact .file hname hfile
  | link hname hlook hgoes _ ih => exact .link hname ((hkeeps _).2 _ hlook) hgoes (ih hplace)

/-- Parts that end where there is room lead, if anywhere, to the file that is written there. -/
theorem Arrives.present_of_vacant {content : Content} {place : Place} (hkeeps : Keeps root root')
    (hfile : root'.look (folder ++ [name]) = .file content)
    (h : Arrives root true links here parts (.vacant folder name))
    (hwalk : Disk.walk root' true links here parts = .ok place) :
    place = .present (folder ++ [name]) (.file content) := by
  generalize hvacant : Place.vacant folder name = vacant at h
  induction h with
  | here | file => cases hvacant
  | stop _ _ _ hfollows => cases hfollows
  | idle hidle _ ih =>
      rw [walk_of_steps (steps_idle hidle)] at hwalk
      exact ih hwalk hvacant
  | up _ ih =>
      rw [walk_of_steps steps_up] at hwalk
      exact ih hwalk hvacant
  | absent hname =>
      cases hvacant
      exact (walk_file hname hfile hwalk).2
  | down hname hlook _ ih =>
      rw [walk_of_steps (steps_folder hname ((hkeeps _).1 hlook))] at hwalk
      exact ih hwalk hvacant
  | link hname hlook _ _ ih =>
      rw [walk_succ (steps_link_followed hname ((hkeeps _).2 _ hlook))] at hwalk
      exact ih hwalk hvacant

/-- Parts that lead to a folder lead somewhere also if a link at the end is not followed. -/
theorem LeadsTo.arrives (h : LeadsTo root location links here parts) :
    ∃ last node, Arrives root false links here parts (.present last node) := by
  induction h with
  | done hlook =>
      obtain ⟨entries, hget⟩ := Node.look_eq_folder_iff.mp hlook
      exact ⟨_, _, .here hget⟩
  | idle hidle _ ih =>
      obtain ⟨last, node, ih⟩ := ih
      exact ⟨last, node, .idle hidle ih⟩
  | up _ ih =>
      obtain ⟨last, node, ih⟩ := ih
      exact ⟨last, node, .up ih⟩
  | down hname hlook _ ih =>
      obtain ⟨last, node, ih⟩ := ih
      exact ⟨last, node, .down hname hlook ih⟩
  | @link links here part rest target hname hlook _ ih =>
      by_cases hrest : rest.all List.isEmpty
      · exact ⟨_, _, .stop hname hlook hrest rfl⟩
      · obtain ⟨last, node, ih⟩ := ih
        exact ⟨last, node, .link hname hlook (fun h => hrest h.1) ih⟩

end Making

end Disk

end SampleHarvest
