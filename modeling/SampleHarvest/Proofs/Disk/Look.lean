import Mathlib.Tactic.ByContra
import Mathlib.Tactic.SplitIfs
import SampleHarvest.Disk.Basic

/-!
# What stands at the locations of a tree

A tree is known by what stands at each of its locations. Putting a file or an empty folder under a
name, where a file or nothing stands, changes the look of one location and of no other. Erasing a
name changes what stands there and below it.
-/

namespace SampleHarvest

/-- What stands at a location. -/
inductive Look where
  | nothing
  | file (content : Content)
  | link (target : Path)
  | folder
  deriving DecidableEq

namespace Node

/-- What a node is, without what a folder holds. -/
def surface : Node → Look
  | .file content => .file content
  | .link target => .link target
  | .folder _ => .folder

/-- What stands at a location of a tree. -/
def look (node : Node) (location : Location) : Look :=
  match node.get? location with
  | none => .nothing
  | some found => found.surface

variable {node new : Node} {location : Location} {name : Text}

theorem surface_eq_folder_iff : node.surface = .folder ↔ ∃ entries, node = .folder entries := by
  cases node <;> simp [surface]

theorem surface_eq_file_iff {content : Content} :
    node.surface = .file content ↔ node = .file content := by
  cases node <;> simp [surface]

theorem surface_eq_link_iff {target : Path} :
    node.surface = .link target ↔ node = .link target := by
  cases node <;> simp [surface]

theorem surface_ne_nothing (node : Node) : node.surface ≠ .nothing := by
  cases node <;> nofun

theorem look_eq_folder_iff :
    node.look location = .folder ↔ ∃ entries, node.get? location = some (.folder entries) := by
  rw [look]
  cases node.get? location with
  | none => simp
  | some found => simp [surface_eq_folder_iff]

theorem look_eq_file_iff {content : Content} :
    node.look location = .file content ↔ node.get? location = some (.file content) := by
  rw [look]
  cases node.get? location with
  | none => simp
  | some found => simp [surface_eq_file_iff]

theorem look_eq_link_iff {target : Path} :
    node.look location = .link target ↔ node.get? location = some (.link target) := by
  rw [look]
  cases node.get? location with
  | none => simp
  | some found => simp [surface_eq_link_iff]

theorem isFolder_iff : node.isFolder ↔ ∃ entries, node = .folder entries := by
  cases node <;> simp [isFolder]

theorem any_isFolder_iff : (node.get? location).any isFolder ↔ node.look location = .folder := by
  rw [look]
  cases node.get? location with
  | none => simp
  | some found => cases found <;> simp [surface, isFolder]

theorem look_eq_nothing_iff : node.look location = .nothing ↔ node.get? location = none := by
  rw [look]
  cases node.get? location with
  | none => simp
  | some found => simp [surface_ne_nothing]

theorem get?_append (node : Node) (front back : Location) :
    node.get? (front ++ back) = (node.get? front).bind (·.get? back) := by
  induction front generalizing node with
  | nil => rfl
  | cons name front ih =>
      rw [List.cons_append, get?, get?]
      cases child? name node.entries with
      | none => rfl
      | some child => exact ih child

theorem look_append {front back : Location} {found : Node} (h : node.get? front = some found) :
    node.look (front ++ back) = found.look back := by
  rw [look, get?_append, h]
  rfl

theorem look_below {front back : Location} (h : node.look front ≠ .folder) (hback : back ≠ []) :
    node.look (front ++ back) = .nothing := by
  rw [look_eq_nothing_iff, get?_append]
  cases hfound : node.get? front with
  | none => rfl
  | some found =>
      obtain ⟨name, rest, rfl⟩ := List.exists_cons_of_ne_nil hback
      cases found with
      | file content => rfl
      | link target => rfl
      | folder entries => exact absurd (look_eq_folder_iff.mpr ⟨entries, hfound⟩) h

/-- Everything above what is there is a folder. -/
theorem look_above {front back : Location} (h : node.look (front ++ back) ≠ .nothing)
    (hback : back ≠ []) : node.look front = .folder := by
  by_contra hfront
  exact h (look_below hfront hback)

/-- The folder above a folder is one, and the top is above itself. -/
theorem look_dropLast (h : node.look location = .folder) : node.look location.dropLast = .folder := by
  rcases List.eq_nil_or_concat location with rfl | ⟨above, name, rfl⟩
  · exact h
  · rw [List.concat_eq_append] at h ⊢
    rw [List.dropLast_concat]
    exact look_above (by rw [h]; nofun) (List.cons_ne_nil name [])

theorem look_top (h : node.look location = .folder) : node.look [] = .folder := by
  by_cases hlocation : location = []
  · rw [hlocation] at h
    exact h
  · rw [← List.nil_append location] at h
    exact look_above (by rw [h]; nofun) hlocation

theorem mem_of_child? {name : Text} {entries : List (Text × Node)} {node : Node}
    (h : child? name entries = some node) : (name, node) ∈ entries := by
  induction entries with
  | nil => cases h
  | cons entry entries ih =>
      obtain ⟨other, old⟩ := entry
      rw [child?] at h
      split_ifs at h with heq
      · cases h
        rw [heq]
        exact List.mem_cons_self
      · exact List.mem_cons_of_mem _ (ih h)

def HasNoLinks (node : Node) : Prop := ∀ location target, node.look location ≠ .link target

theorem file_hasNoLinks (content : Content) : (file content).HasNoLinks := by
  intro location target
  cases location <;> nofun

theorem folder_hasNoLinks {entries : List (Text × Node)}
    (h : ∀ entry ∈ entries, entry.2.HasNoLinks) : (folder entries).HasNoLinks := by
  intro location target
  cases location with
  | nil => nofun
  | cons name location =>
      rw [look, get?]
      cases hchild : child? name (folder entries).entries with
      | none => nofun
      | some child => exact h _ (mem_of_child? hchild) location target

/-! ### Putting -/

theorem child?_setEntry (other : Text) (entries : List (Text × Node)) :
    child? other (setEntry name new entries) =
      if other = name then some new else child? other entries := by
  induction entries with
  | nil => simp [setEntry, child?, eq_comm]
  | cons entry entries ih =>
      obtain ⟨first, old⟩ := entry
      rw [setEntry]
      by_cases hfirst : first = name
      · subst hfirst
        rw [if_pos rfl, child?, child?]
        by_cases hother : first = other
        · rw [if_pos hother, if_pos hother.symm]
        · rw [if_neg hother, if_neg hother, if_neg (Ne.symm hother)]
      · rw [if_neg hfirst, child?, child?, ih]
        by_cases hother : first = other
        · rw [if_pos hother, if_pos hother, if_neg (hother ▸ hfirst)]
        · rw [if_neg hother, if_neg hother]

theorem setEntry_self {entries : List (Text × Node)} (h : child? name entries = some new) :
    setEntry name new entries = entries := by
  induction entries with
  | nil => cases h
  | cons entry entries ih =>
      obtain ⟨other, old⟩ := entry
      rw [child?] at h
      rw [setEntry]
      split_ifs at h ⊢ with hother
      · rw [hother, Option.some.inj h]
      · rw [ih h]

theorem put_of_not_folder (h : node.look location ≠ .folder) :
    node.put location name new = node := by
  rw [put]
  induction location generalizing node with
  | nil =>
      cases node with
      | folder entries => exact absurd rfl h
      | file content => rfl
      | link target => rfl
  | cons first location ih =>
      cases node with
      | file content => rfl
      | link target => rfl
      | folder entries =>
          rw [modifyFolder]
          cases hchild : child? first entries with
          | none => rfl
          | some child =>
              have hlook : (folder entries).look (first :: location) = child.look location := by
                rw [look, get?, Node.entries, hchild]
                rfl
              rw [hlook] at h
              simp only [ih h, setEntry_self hchild]

/-- Putting what is already there changes nothing. -/
theorem put_self (h : node.get? (location ++ [name]) = some new) :
    node.put location name new = node := by
  rw [put]
  induction location generalizing node with
  | nil =>
      cases node with
      | file content => cases h
      | link target => cases h
      | folder entries =>
          obtain ⟨found, hchild, hfound⟩ := Option.bind_eq_some_iff.mp h
          cases hfound
          simp only [Node.entries] at hchild
          rw [modifyFolder, setEntry_self hchild]
  | cons first location ih =>
      cases node with
      | file content => cases h
      | link target => cases h
      | folder entries =>
          obtain ⟨child, hchild, hfound⟩ := Option.bind_eq_some_iff.mp h
          simp only [Node.entries] at hchild
          simp only [modifyFolder, hchild, ih hfound, setEntry_self hchild]

theorem get?_put_below (h : node.look location = .folder) (rest : Location) :
    (node.put location name new).get? (location ++ name :: rest) = new.get? rest := by
  rw [put]
  induction location generalizing node with
  | nil =>
      obtain ⟨entries, hentries⟩ := look_eq_folder_iff.mp h
      cases hentries
      rw [modifyFolder, List.nil_append, get?, Node.entries, child?_setEntry, if_pos rfl]
      rfl
  | cons first location ih =>
      cases node with
      | file content => cases h
      | link target => cases h
      | folder entries =>
          cases hchild : child? first entries with
          | none =>
              have hnone : (folder entries).get? (first :: location) = none := by
                rw [get?, Node.entries, hchild]
                rfl
              rw [look_eq_nothing_iff.mpr hnone] at h
              cases h
          | some child =>
              have hlook : (folder entries).look (first :: location) = child.look location := by
                rw [look, get?, Node.entries, hchild]
                rfl
              rw [hlook] at h
              simp only [modifyFolder, hchild, List.cons_append, get?, Node.entries,
                child?_setEntry, if_true, Option.bind_some]
              exact ih h

/-- Away from the place where something is put, everything stays. -/
theorem look_put_of_ne {other : Location} (h : ∀ rest, other ≠ location ++ name :: rest) :
    (node.put location name new).look other = node.look other := by
  rw [put]
  induction location generalizing node other with
  | nil =>
      cases node with
      | file content => rfl
      | link target => rfl
      | folder entries =>
          cases other with
          | nil => rfl
          | cons first rest =>
              have hfirst : first ≠ name := fun heq => h rest (by rw [heq]; rfl)
              simp only [look, modifyFolder, get?, Node.entries, child?_setEntry, if_neg hfirst]
  | cons first location ih =>
      cases node with
      | file content => rfl
      | link target => rfl
      | folder entries =>
          rw [modifyFolder]
          cases hchild : child? first entries with
          | none => rfl
          | some child =>
              cases other with
              | nil => rfl
              | cons second rest =>
                  simp only [look, get?, Node.entries, child?_setEntry]
                  by_cases hsecond : second = first
                  · subst hsecond
                    rw [if_pos rfl, hchild]
                    refine ih fun tail heq => h tail ?_
                    rw [heq]
                    rfl
                  · rw [if_neg hsecond]

/-- Putting a file or an empty folder where a file or nothing stands changes one location. -/
theorem look_put (h : node.look location = .folder)
    (hold : node.look (location ++ [name]) ≠ .folder)
    (hnew : ∀ rest, rest ≠ [] → new.look rest = .nothing) (other : Location) :
    (node.put location name new).look other =
      if other = location ++ [name] then new.surface else node.look other := by
  by_cases hbelow : ∃ rest, other = location ++ name :: rest
  · obtain ⟨rest, rfl⟩ := hbelow
    rw [look, get?_put_below h]
    cases rest with
    | nil => rw [if_pos rfl]; rfl
    | cons first rest =>
        have hnothing := hnew (first :: rest) (List.cons_ne_nil _ _)
        have hlook := look_below hold (List.cons_ne_nil first rest)
        rw [List.append_assoc, List.singleton_append] at hlook
        rw [look_eq_nothing_iff.mp hnothing, if_neg (by simp), hlook]
  · rw [look_put_of_ne fun rest heq => hbelow ⟨rest, heq⟩,
      if_neg fun heq => hbelow ⟨[], heq⟩]

/-! ### Erasing -/

theorem child?_dropEntry (other : Text) (entries : List (Text × Node)) :
    child? other (dropEntry name entries) =
      if other = name then none else child? other entries := by
  induction entries with
  | nil => simp [dropEntry, child?]
  | cons entry entries ih =>
      obtain ⟨first, old⟩ := entry
      rw [dropEntry] at ih ⊢
      by_cases hfirst : first = name
      · rw [List.filter_cons_of_neg (by simpa using hfirst), ih, child?]
        split_ifs with hother hsame
        · rfl
        · exact absurd (hsame.symm.trans hfirst) hother
        · rfl
      · rw [List.filter_cons_of_pos (by simpa using hfirst), child?, child?, ih]
        by_cases hother : first = other
        · rw [if_pos hother, if_pos hother, if_neg (hother ▸ hfirst)]
        · rw [if_neg hother, if_neg hother]

/-- A name that is erased is gone with all below it, and everything else stays. -/
theorem look_erase (other : Location) :
    (node.erase location name).look other =
      if location ++ [name] <+: other then .nothing else node.look other := by
  rw [erase]
  induction location generalizing node other with
  | nil =>
      cases other with
      | nil => cases node <;> simp [look, modifyFolder, get?, surface]
      | cons first rest =>
          cases node with
          | file content => simp [look, modifyFolder, get?, Node.entries, child?]
          | link target => simp [look, modifyFolder, get?, Node.entries, child?]
          | folder entries =>
              simp only [look, modifyFolder, get?, Node.entries, child?_dropEntry, List.nil_append,
                List.cons_prefix_cons, List.nil_prefix, and_true]
              by_cases hfirst : first = name
              · rw [if_pos hfirst, if_pos hfirst.symm]
                rfl
              · rw [if_neg hfirst, if_neg (Ne.symm hfirst)]
  | cons first location ih =>
      cases node with
      | file content => cases other <;> simp [look, modifyFolder, get?, Node.entries, child?]
      | link target => cases other <;> simp [look, modifyFolder, get?, Node.entries, child?]
      | folder entries =>
          rw [modifyFolder]
          cases other with
          | nil => cases child? first entries <;> simp [look, get?, surface]
          | cons second rest =>
              simp only [List.cons_append, List.cons_prefix_cons]
              by_cases hsecond : first = second
              · subst hsecond
                cases hchild : child? first entries with
                | none => simp [look, get?, Node.entries, hchild]
                | some child =>
                    have hrest := @ih child rest
                    simp only [look, get?, Node.entries, child?_setEntry, hchild, if_true,
                      Option.bind_some, true_and] at hrest ⊢
                    exact hrest
              · rw [if_neg fun h => hsecond h.1]
                cases hchild : child? first entries with
                | none => rfl
                | some child =>
                    simp only [look, get?, Node.entries, child?_setEntry, if_neg (Ne.symm hsecond)]

/-! ### Changing a folder -/

theorem isFolder_modifyFolder (node : Node) (change : List (Text × Node) → List (Text × Node))
    (location : Location) : (node.modifyFolder change location).isFolder = node.isFolder := by
  cases location with
  | nil => cases node <;> rfl
  | cons first location =>
      cases node with
      | file content => rfl
      | link target => rfl
      | folder entries =>
          rw [modifyFolder]
          cases child? first entries <;> rfl

/-- Elsewhere than in a folder that changes, and not above it, all that is below a location stays. -/
theorem get?_modifyFolder {change : List (Text × Node) → List (Text × Node)} {other : Location}
    (habove : ¬other <+: location)
    (hchange : ∀ first rest, other = location ++ first :: rest →
      ∀ entries, child? first (change entries) = child? first entries) :
    (node.modifyFolder change location).get? other = node.get? other := by
  induction location generalizing node other with
  | nil =>
      cases other with
      | nil => exact absurd List.prefix_rfl habove
      | cons first rest =>
          cases node with
          | file content => rfl
          | link target => rfl
          | folder entries =>
              simp only [modifyFolder, get?, Node.entries, hchange first rest rfl entries]
  | cons first location ih =>
      cases node with
      | file content => rfl
      | link target => rfl
      | folder entries =>
          rw [modifyFolder]
          cases hchild : child? first entries with
          | none => rfl
          | some child =>
              cases other with
              | nil => exact absurd List.nil_prefix habove
              | cons second rest =>
                  simp only [get?, Node.entries, child?_setEntry]
                  by_cases hsecond : second = first
                  · subst hsecond
                    rw [if_pos rfl, hchild]
                    refine ih (fun hprefix => habove (List.cons_prefix_cons.mpr ⟨rfl, hprefix⟩)) ?_
                    rintro third tail rfl
                    exact hchange third tail rfl
                  · rw [if_neg hsecond]

theorem get?_modifyFolder_below {change : List (Text × Node) → List (Text × Node)}
    {base below : Location} {found : Node} (h : node.get? base = some found) :
    (node.modifyFolder change (base ++ below)).get? base = some (found.modifyFolder change below) := by
  induction base generalizing node with
  | nil =>
      cases h
      rfl
  | cons first base ih =>
      obtain ⟨child, hchild, hfound⟩ := Option.bind_eq_some_iff.mp h
      cases node with
      | file content => cases hchild
      | link target => cases hchild
      | folder entries =>
          simp only [Node.entries] at hchild
          simp only [List.cons_append, modifyFolder, hchild, get?, Node.entries, child?_setEntry,
            if_true, Option.bind_some]
          exact ih hfound

theorem look_file_below {content : Content} (rest : Location) (hrest : rest ≠ []) :
    (file content).look rest = .nothing := by
  have hfile : (file content).look [] ≠ .folder := by nofun
  exact look_below hfile hrest

theorem look_folder_below (rest : Location) (hrest : rest ≠ []) :
    (folder []).look rest = .nothing := by
  obtain ⟨name, rest, rfl⟩ := List.exists_cons_of_ne_nil hrest
  rfl

end Node

end SampleHarvest
