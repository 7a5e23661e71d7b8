import SampleHarvest.Proofs.Path.Join
import SampleHarvest.Proofs.Text.Order

/-!
# The order of paths

Paths are ordered by their components, which is a linear order of lists of components. A file name
behind a path adds one component to those of the path.
-/

namespace SampleHarvest

namespace Path

/-! ### Components -/

theorem Component.le_total (a b : Component) : a.le b ∨ b.le a := by
  cases a <;> cases b <;> simp [Component.le, Text.le_total]

theorem Component.le_antisymm {a b : Component} (hab : a.le b) (hba : b.le a) : a = b := by
  cases a with
  | root =>
      cases b with
      | root => rfl
      | here | up | name => cases hba
  | here =>
      cases b with
      | root => cases hab
      | here => rfl
      | up | name => cases hba
  | up =>
      cases b with
      | root | here => cases hab
      | up => rfl
      | name => cases hba
  | name a =>
      cases b with
      | root | here | up => cases hab
      | name b => rw [Text.le_antisymm hab hba]

theorem Component.le_trans {a b c : Component} (hab : a.le b) (hbc : b.le c) : a.le c := by
  cases a with
  | root => rfl
  | here =>
      cases b with
      | root => cases hab
      | here => exact hbc
      | up | name => cases c <;> first | rfl | cases hbc
  | up =>
      cases b with
      | root | here => cases hab
      | up => exact hbc
      | name => cases c <;> first | rfl | cases hbc
  | name a =>
      cases b with
      | root | here | up => cases hab
      | name b =>
          cases c with
          | root | here | up => cases hbc
          | name c => exact Text.le_trans hab hbc

/-! ### Lists of components -/

variable {as bs cs : List Component}

theorem componentsLe_cons_cons {a b : Component} :
    componentsLe (a :: as) (b :: bs) ↔ a ≠ b ∧ a.le b ∨ a = b ∧ componentsLe as bs := by
  rw [componentsLe]
  by_cases h : a = b <;> simp [h]

theorem componentsLe_total (as bs : List Component) : componentsLe as bs ∨ componentsLe bs as := by
  induction as generalizing bs with
  | nil => exact Or.inl rfl
  | cons a as ih =>
      cases bs with
      | nil => exact Or.inr rfl
      | cons b bs =>
          rw [componentsLe_cons_cons, componentsLe_cons_cons]
          by_cases h : a = b
          · exact (ih bs).imp (fun hle => Or.inr ⟨h, hle⟩) fun hle => Or.inr ⟨h.symm, hle⟩
          · exact (Component.le_total a b).imp (fun hle => Or.inl ⟨h, hle⟩)
              fun hle => Or.inl ⟨Ne.symm h, hle⟩

theorem componentsLe_antisymm (hab : componentsLe as bs) (hba : componentsLe bs as) : as = bs := by
  induction as generalizing bs with
  | nil =>
      cases bs with
      | nil => rfl
      | cons b bs => cases hba
  | cons a as ih =>
      cases bs with
      | nil => cases hab
      | cons b bs =>
          rw [componentsLe_cons_cons] at hab hba
          rcases hab with ⟨hne, hab⟩ | ⟨rfl, hab⟩
          · rcases hba with ⟨-, hba⟩ | ⟨heq, -⟩
            · exact absurd (Component.le_antisymm hab hba) hne
            · exact absurd heq.symm hne
          · rcases hba with ⟨hne, -⟩ | ⟨-, hba⟩
            · exact absurd rfl hne
            · rw [ih hab hba]

theorem componentsLe_trans (hab : componentsLe as bs) (hbc : componentsLe bs cs) :
    componentsLe as cs := by
  induction as generalizing bs cs with
  | nil => rfl
  | cons a as ih =>
      cases bs with
      | nil => cases hab
      | cons b bs =>
          cases cs with
          | nil => cases hbc
          | cons c cs =>
              rw [componentsLe_cons_cons] at hab hbc ⊢
              rcases hab with ⟨hne, hab⟩ | ⟨rfl, hab⟩
              · rcases hbc with ⟨hne', hbc⟩ | ⟨rfl, -⟩
                · refine Or.inl ⟨?_, Component.le_trans hab hbc⟩
                  rintro rfl
                  exact hne (Component.le_antisymm hab hbc)
                · exact Or.inl ⟨hne, hab⟩
              · exact hbc.imp_right fun ⟨heq, hbc⟩ => ⟨heq, ih hab hbc⟩

/-! ### File names -/

def IsFileName (name : Text) : Prop := ¬isIdlePart name ∧ name ≠ ".." ∧ '/' ∉ name

/-- The components that parts stand for. -/
def componentsOf (absolute : Bool) : List Text → List Component
  | [] => []
  | first :: parts =>
    (if first = [] then (if absolute then [.root] else [])
      else if first = "." then [.here]
      else (Component.ofPart? first).toList) ++ parts.filterMap Component.ofPart?

theorem components_eq (path : Path) :
    components path = componentsOf (isAbsolute path) (Text.splitOn '/' path) := by
  rw [components]
  cases Text.splitOn '/' path <;> rfl

theorem componentsOf_append {parts : List Text} (h : parts ≠ []) (absolute : Bool)
    (more : List Text) :
    componentsOf absolute (parts ++ more) =
      componentsOf absolute parts ++ more.filterMap Component.ofPart? := by
  obtain ⟨first, rest, rfl⟩ := List.exists_cons_of_ne_nil h
  rw [List.cons_append, componentsOf, componentsOf, List.filterMap_append, List.append_assoc]

theorem splitOn_eq_singleton {name : Text} (h : '/' ∉ name) : Text.splitOn '/' name = [name] := by
  induction name with
  | nil => rfl
  | cons c name ih =>
      obtain ⟨hc, hname⟩ := not_or.mp (mt List.mem_cons.mpr h)
      rw [Text.splitOn, if_neg (Ne.symm hc), ih hname]

/-- A path that begins with a part that counts is relative. -/
theorem not_isAbsolute_of_first {path : Path} {first : Text} {parts : List Text}
    (hsplit : Text.splitOn '/' path = first :: parts) (hfirst : ¬isIdlePart first) :
    ¬isAbsolute path := by
  intro habsolute
  obtain ⟨rest, rfl⟩ := isAbsolute_iff.mp habsolute
  rw [Text.splitOn, if_pos rfl] at hsplit
  rw [← (List.cons.inj hsplit).1] at hfirst
  exact hfirst rfl

/-- The first part of a path counts like any other unless it is idle. -/
theorem componentsOf_first {first : Text} (hfirst : ¬isIdlePart first) (absolute : Bool)
    (parts : List Text) :
    componentsOf absolute (first :: parts) = (first :: parts).filterMap Component.ofPart? := by
  rw [isIdlePart, Bool.or_eq_true, not_or, List.isEmpty_iff, decide_eq_true_eq] at hfirst
  rw [componentsOf, if_neg hfirst.1, if_neg hfirst.2, List.filterMap_cons]
  cases Component.ofPart? first <;> rfl

/-- The components of a path below a folder come behind those of the folder. -/
theorem components_join_below {rest : Path} {first : Text} {parts : List Text}
    (hsplit : Text.splitOn '/' rest = first :: parts) (hfirst : ¬isIdlePart first) (base : Path) :
    components (join base rest) = components base ++ components rest := by
  have hrelative := not_isAbsolute_of_first hsplit hfirst
  rw [components_eq, components_eq base, components_eq rest, isAbsolute_join hrelative,
    splitOn_join hrelative, hsplit, componentsOf_first hfirst _ parts]
  cases base with
  | nil => exact componentsOf_first hfirst _ parts
  | cons c base =>
      rw [baseParts]
      split_ifs with hend
      · obtain ⟨front, hfront⟩ :=
          List.isSuffixOf_iff_suffix.mp (show Text.endsWith (c :: base) "/" from hend)
        have hbase : Text.splitOn '/' (c :: base) = Text.splitOn '/' front ++ [[]] := by
          rw [← hfront]
          exact Text.splitOn_append front []
        rw [hbase, List.dropLast_concat, componentsOf_append (Text.splitOn_ne_nil _ _),
          componentsOf_append (Text.splitOn_ne_nil _ _)]
        simp [Component.ofPart?]
      · rw [componentsOf_append (Text.splitOn_ne_nil _ _)]

theorem ofPart?_of_isFileName {name : Text} (h : IsFileName name) :
    Component.ofPart? name = some (.name name) := by
  obtain ⟨hidle, hup, -⟩ := h
  rw [isIdlePart, Bool.or_eq_true, not_or, List.isEmpty_iff, decide_eq_true_eq] at hidle
  rw [Component.ofPart?, if_neg (not_or.mpr hidle), if_neg hup]

/-- A name makes a path longer. -/
theorem length_lt_join {name : Text} (h : IsFileName name) (base : Path) :
    base.length < (join base name).length := by
  have hne : 0 < name.length := List.length_pos_iff.mpr fun hnil => h.1 (hnil ▸ rfl)
  have hrelative := not_isAbsolute_of_first (splitOn_eq_singleton h.2.2) h.1
  rw [join, if_neg hrelative]
  split_ifs <;> simp only [List.length_append] <;> omega

theorem components_join {name : Text} (h : IsFileName name) (base : Path) :
    components (join base name) = components base ++ [.name name] := by
  have hsplit : Text.splitOn '/' name = [name] := splitOn_eq_singleton h.2.2
  rw [components_join_below hsplit h.1, components_eq name, hsplit, componentsOf_first h.1,
    List.filterMap_cons, ofPart?_of_isFileName h, List.filterMap_nil]

end Path

end SampleHarvest
