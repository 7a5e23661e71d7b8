import Mathlib.Data.List.Nodup
import SampleHarvest.Proofs.Toml.Number

/-!
# Written documents are read as their tables

A written document is a row of sections: a header and a line for each field, and a blank line
between two sections. It is read statement by statement. A header begins a table that is not there
yet, and the lines below it fill this table, so in the end every section has become an entry.
-/

namespace SampleHarvest

namespace Toml

theorem isSpace_eq_false_of_isDigit {c : Char} (h : c.isDigit) : isSpace c = false := by
  by_contra hspace
  simp only [isSpace, Bool.not_eq_false, Bool.or_eq_true, beq_iff_eq] at hspace
  rcases hspace with rfl | rfl <;> cases h

/-- A value with its written form on a line. -/
structure Written where
  value : Toml
  text : Text
  /-- The written form does not begin with a blank. -/
  begins : ∃ c u, text = c :: u ∧ isSpace c = false
  reads : ∀ rest, Toml.value maxDepth (text ++ '\n' :: rest) = .ok (value, '\n' :: rest)

namespace Written

def ofText (t : Text) : Written where
  value := .string t
  text := stringText t
  begins := by
    obtain ⟨c, u, hwritten, rfl | rfl⟩ := exists_stringText_cons t
    · exact ⟨_, u, hwritten, rfl⟩
    · exact ⟨_, u, hwritten, rfl⟩
  reads rest := value_stringText maxDepth t (isBehind_cons (by decide) (by decide) rest)

def ofTexts (texts : List Text) : Written where
  value := .array (texts.map .string)
  text := arrayText texts
  begins := by
    match texts with
    | [] => exact ⟨'\x5b', _, rfl, rfl⟩
    | [t] => exact ⟨'\x5b', _, rfl, rfl⟩
    | t :: u :: texts => exact ⟨'\x5b', _, rfl, rfl⟩
  reads rest := value_arrayText 78 texts ('\n' :: rest)

/-- A number that is not too great. -/
def ofNat (n : Nat) (h : (n : Int) ≤ maxInteger) : Written where
  value := .integer n
  text := Text.ofNat n
  begins := by
    obtain ⟨c, run, hdigits, hc, -⟩ := exists_ofNat_cons n
    exact ⟨c, run, hdigits, isSpace_eq_false_of_isDigit hc⟩
  reads := value_ofNat h maxDepth

end Written

/-! ### Statements -/

/-- A name that is written without quotes. -/
structure IsBareKey (name : Text) : Prop where
  ne_nil : name ≠ []
  plain : ∀ c ∈ name, isKeyCharacter c

instance : DecidablePred IsBareKey := fun name =>
  decidable_of_iff (name ≠ [] ∧ name.all isKeyCharacter)
    ⟨fun h => ⟨h.1, List.all_eq_true.mp h.2⟩, fun h => ⟨h.ne_nil, List.all_eq_true.mpr h.plain⟩⟩

theorem ne_of_isKeyCharacter {c d : Char} (hc : isKeyCharacter c) (hd : isKeyCharacter d = false) :
    c ≠ d := by
  rintro rfl
  rw [hc] at hd
  cases hd

theorem isSpace_of_isKeyCharacter {c : Char} (hc : isKeyCharacter c) : isSpace c = false := by
  simp [isSpace, ne_of_isKeyCharacter hc (d := ' ') rfl, ne_of_isKeyCharacter hc (d := '\t') rfl]

variable {name rest : Text}

theorem skipSpace_of_not_isSpace {c : Char} (h : isSpace c = false) (t : Text) :
    skipSpace (c :: t) = c :: t :=
  List.dropWhile_cons_of_neg (by rw [h]; exact Bool.false_ne_true)

theorem IsBareKey.exists_cons (hname : IsBareKey name) :
    ∃ c u, name = c :: u ∧ isKeyCharacter c := by
  obtain ⟨c, u, rfl⟩ := List.exists_cons_of_ne_nil hname.ne_nil
  exact ⟨c, u, rfl, hname.plain c List.mem_cons_self⟩

theorem skipSpace_key (hname : IsBareKey name) (rest : Text) :
    skipSpace (name ++ rest) = name ++ rest := by
  obtain ⟨c, u, rfl, hc⟩ := hname.exists_cons
  exact skipSpace_of_not_isSpace (isSpace_of_isKeyCharacter hc) (u ++ rest)

theorem key_append (hname : IsBareKey name) {c : Char} (hc : isKeyCharacter c = false) (t : Text) :
    key (name ++ c :: t) = .ok (name, c :: t) := by
  have hrun : (name ++ c :: t).takeWhile isKeyCharacter = name := by
    rw [List.takeWhile_append_of_pos hname.plain,
      List.takeWhile_cons_of_neg (by rw [hc]; exact Bool.false_ne_true), List.append_nil]
  have hback : (name ++ c :: t).drop name.length = c :: t := List.drop_left
  obtain ⟨d, u, rfl, hd⟩ := hname.exists_cons
  rw [List.cons_append] at hrun hback ⊢
  simp [key, hrun, ne_of_isKeyCharacter hd (d := '\x22') rfl,
    ne_of_isKeyCharacter hd (d := '\x27') rfl]

/-- A single key, when what is behind it and behind the blanks is no point. -/
theorem keyPath_key (hname : IsBareKey name) {c d : Char} {t u : Text}
    (hc : isKeyCharacter c = false) (hrest : skipSpace (c :: t) = d :: u) (hd : d ≠ '.') :
    keyPath (name ++ c :: t) = .ok ([name], d :: u) := by
  have hkeys : keys ((name ++ c :: t).length + 1) (name ++ c :: t) = .ok ([name], d :: u) := by
    rw [keys, skipSpace_key hname, key_append hname hc]
    dsimp only [bind, Except.bind]
    rw [hrest]
    split
    · rename_i hpoint
      exact absurd (List.head_eq_of_cons_eq hpoint) hd
    · rfl
  rw [keyPath, inside_ok hkeys]
  rfl

theorem lineEnd_lineFeed (rest : Text) : lineEnd ('\n' :: rest) = .ok ((), rest) := rfl

theorem statement_header (hname : IsBareKey name) (rest : Text) :
    statement (headerLine name ++ rest) = .ok (some (.header [name]), rest) := by
  have hclose : expecting [mark ['.'], mark ['\x5d']] (exactly ['\x5d']) ('\x5d' :: '\n' :: rest) =
      .ok ((), '\n' :: rest) := expecting_ok (exactly_append ['\x5d'] ('\n' :: rest))
  have hheader : header .header ['\x5d'] (name ++ '\x5d' :: '\n' :: rest) =
      .ok (.header [name], rest) := by
    refine inside_ok ?_
    rw [keyPath_key hname (c := '\x5d') (by decide) rfl (by decide)]
    dsimp only [bind, Except.bind]
    rw [hclose]
    dsimp only
    rw [lineEnd_lineFeed]
    rfl
  have hwritten : headerLine name ++ rest = '\x5b' :: (name ++ '\x5d' :: '\n' :: rest) := by
    simp [headerLine]
  obtain ⟨c, u, rfl, hc⟩ := hname.exists_cons
  rw [hwritten]
  rw [List.cons_append] at hheader ⊢
  simp [statement, ne_of_isKeyCharacter hc (d := '\x5b') rfl, hheader]

theorem assignment_line (hname : IsBareKey name) (found : Written) (rest : Text) :
    assignment (line name found.text ++ rest) = .ok (.assignment [name] found.value, rest) := by
  have hline : line name found.text ++ rest =
      name ++ ' ' :: '=' :: ' ' :: (found.text ++ '\n' :: rest) := by
    simp [line]
  have hequals : equals ('=' :: ' ' :: (found.text ++ '\n' :: rest)) =
      .ok ((), found.text ++ '\n' :: rest) := by
    obtain ⟨c, u, hwritten, hc⟩ := found.begins
    rw [hwritten]
    have hsign : expecting [mark ['.'], mark ['=']] (final (exactly ['=']))
        ('=' :: ' ' :: (c :: u ++ '\n' :: rest)) = .ok ((), ' ' :: (c :: u ++ '\n' :: rest)) :=
      expecting_ok (final_ok (exactly_append ['='] _))
    have hskip : skipSpace (' ' :: (c :: u ++ '\n' :: rest)) = c :: u ++ '\n' :: rest :=
      skipSpace_of_not_isSpace hc (u ++ '\n' :: rest)
    rw [equals, hsign]
    exact congrArg (fun t => Except.ok ((), t)) hskip
  rw [hline, assignment, keyPath_key hname (c := ' ') (by decide) rfl (by decide)]
  dsimp only [bind, Except.bind]
  rw [hequals]
  dsimp only
  rw [found.reads]
  dsimp only
  rw [lineEnd_lineFeed]
  rfl

/-- Where a key begins, an assignment does. -/
theorem statement_key {c : Char} (hc : isKeyCharacter c) (t : Text) :
    statement (c :: t) = (assignment (c :: t)).map fun (found, rest) => (some found, rest) := by
  simp [statement, ne_of_isKeyCharacter hc (d := '\x5b') rfl, ne_of_isKeyCharacter hc (d := '#') rfl,
    ne_of_isKeyCharacter hc (d := '\n') rfl, ne_of_isKeyCharacter hc (d := '\r') rfl]
  cases assignment (c :: t) <;> rfl

theorem statement_line (hname : IsBareKey name) (found : Written) (rest : Text) :
    statement (line name found.text ++ rest) =
      .ok (some (.assignment [name] found.value), rest) := by
  have hassignment := assignment_line hname found rest
  obtain ⟨c, u, rfl, hc⟩ := hname.exists_cons
  have hread := statement_key hc (u ++ " = " ++ found.text ++ "\n" ++ rest)
  exact hread.trans (congrArg (Except.map _) hassignment)

/-! ### Tables as they are filled -/

/-- A key with its value, if it has one. -/
structure Field where
  key : Text
  isBareKey : IsBareKey key
  found? : Option Written

namespace Field

/-- The line of a field; nothing is written where no value is. -/
def text (field : Field) : Text :=
  match field.found? with
  | some found => line field.key found.text
  | none => []

def entry? (field : Field) : Option (Text × Toml) :=
  field.found?.map fun found => (field.key, found.value)

end Field

/-- A table with a header of its own. -/
structure Section where
  key : Text
  isBareKey : IsBareKey key
  fields : List Field
  nodup : (fields.map Field.key).Nodup

namespace Section

def text (part : Section) : Text := headerLine part.key ++ part.fields.flatMap Field.text

def entry (part : Section) : Text × Toml :=
  (part.key, .table .defined (part.fields.filterMap Field.entry?))

end Section

section

variable {name : Text} {front : Entries}

theorem value?_append (h : name ∉ front.map Prod.fst) (back : Entries) :
    value? name (front ++ back) = value? name back := by
  induction front with
  | nil => rfl
  | cons entry front ih =>
      simp only [List.map_cons, List.mem_cons, not_or] at h
      rw [List.cons_append, value?, if_neg (Ne.symm h.1), ih h.2]

theorem setValue_append (h : name ∉ front.map Prod.fst) (found : Toml) (back : Entries) :
    setValue name found (front ++ back) = front ++ setValue name found back := by
  induction front with
  | nil => rfl
  | cons entry front ih =>
      simp only [List.map_cons, List.mem_cons, not_or] at h
      rw [List.cons_append, setValue, if_neg (Ne.symm h.1), ih h.2, List.cons_append]

end

variable {entries old : Entries}

theorem add_header (h : name ∉ entries.map Prod.fst) (current : List Text) :
    Draft.add ⟨entries, current⟩ (.header [name]) =
      .ok ⟨entries ++ [(name, .table .defined [])], [name]⟩ := by
  have hnone := value?_append h []
  have hset := setValue_append h (.table .defined []) []
  rw [List.append_nil] at hnone hset
  have htable : descend .header (addTable [name] name) [] .defined [] entries =
      .ok (entries ++ [(name, .table .defined [])]) := by
    rw [descend, addTable, hnone, hset]
    rfl
  change (descend .header (addTable [name] name) [] .defined [] entries >>= fun entries =>
    Except.ok (Draft.mk entries [name])) = _
  rw [htable]
  rfl

/-- An assignment goes to the last table, which has the header above it. -/
theorem add_assignment (h : name ∉ entries.map Prod.fst) {key : Text}
    (hkey : key ∉ old.map Prod.fst) (found : Toml) :
    Draft.add ⟨entries ++ [(name, .table .defined old)], [name]⟩ (.assignment [key] found) =
      .ok ⟨entries ++ [(name, .table .defined (old ++ [(key, found)]))], [name]⟩ := by
  have hassign : assign .dotted (some [name]) [key] found .defined old =
      .ok (old ++ [(key, found)]) := by
    have hnone := value?_append hkey []
    rw [List.append_nil] at hnone
    have hvalue : addValue false (some [name]) key found .defined old =
        .ok (old ++ [(key, found)]) := by
      rw [addValue, if_neg (by decide), hnone]
      rfl
    exact hvalue
  have hdescend : descend .header (assign .dotted (some [name]) [key] found) [] .defined
      [name] (entries ++ [(name, .table .defined old)]) =
      .ok (entries ++ [(name, .table .defined (old ++ [(key, found)]))]) := by
    have hfound : value? name (entries ++ [(name, .table .defined old)]) =
        some (.table .defined old) := by
      rw [value?_append h, value?, if_pos rfl]
    rw [descend, hfound]
    dsimp only [Route.clash?, bind, Except.bind]
    rw [descend, hassign]
    dsimp only
    rw [setValue_append h, setValue, if_pos rfl]
    rfl
  rw [Draft.add, hdescend]
  rfl

/-! ### Reading the whole document -/

def Leads (start : Draft) (t : Text) (result : Draft) : Prop :=
  ∀ most, t.length < most → statements most start t = .ok result

theorem Leads.nil (draft : Draft) : Leads draft [] draft := by
  intro most hmost
  obtain ⟨most, rfl⟩ := Nat.exists_eq_add_one_of_ne_zero (Nat.ne_of_gt hmost)
  rfl

variable {start next result : Draft} {t : Text}

theorem Leads.lineFeed (h : Leads start rest result) : Leads start ('\n' :: rest) result := by
  intro most hmost
  obtain ⟨most, rfl⟩ := Nat.exists_eq_add_one_of_ne_zero (Nat.ne_of_gt (Nat.zero_lt_of_lt hmost))
  exact h most (Nat.lt_of_succ_lt_succ hmost)

theorem Leads.statement {found : Statement} {c : Char} (hc : isSpace c = false)
    (hread : statement (c :: t) = .ok (some found, rest)) (hlength : rest.length ≤ t.length)
    (hadd : start.add found = .ok next) (h : Leads next rest result) :
    Leads start (c :: t) result := by
  intro most hmost
  rw [List.length_cons] at hmost
  obtain ⟨most, rfl⟩ := Nat.exists_eq_add_one_of_ne_zero (Nat.ne_of_gt (Nat.zero_lt_of_lt hmost))
  have haddAt : start.addAt (c :: t) found = .ok next := by
    unfold Draft.addAt
    rw [hadd]
    cases found <;> rfl
  rw [statements, skipSpace_of_not_isSpace hc]
  dsimp only [bind, Except.bind]
  rw [hread]
  dsimp only
  rw [haddAt]
  exact h most (by omega)

theorem Leads.header (hname : IsBareKey name) (hadd : start.add (.header [name]) = .ok next)
    (h : Leads next rest result) : Leads start (headerLine name ++ rest) result := by
  have hlength : rest.length ≤ (name ++ "]\n" ++ rest).length := by
    rw [List.length_append]
    exact Nat.le_add_left ..
  exact Leads.statement (c := '\x5b') rfl (statement_header hname rest) hlength hadd h

theorem Leads.line (hname : IsBareKey name) (found : Written)
    (hadd : start.add (.assignment [name] found.value) = .ok next)
    (h : Leads next rest result) : Leads start (line name found.text ++ rest) result := by
  have hread := statement_line hname found rest
  obtain ⟨c, u, rfl, hc⟩ := hname.exists_cons
  have hlength : rest.length ≤ (u ++ " = " ++ found.text ++ "\n" ++ rest).length := by
    rw [List.length_append]
    exact Nat.le_add_left ..
  exact Leads.statement (isSpace_of_isKeyCharacter hc) hread hlength hadd h

theorem Leads.fields (h : name ∉ entries.map Prod.fst) {fields : List Field}
    (hnodup : (old.map Prod.fst ++ fields.map Field.key).Nodup)
    (hrest : Leads
      ⟨entries ++ [(name, .table .defined (old ++ fields.filterMap Field.entry?))], [name]⟩
      rest result) :
    Leads ⟨entries ++ [(name, .table .defined old)], [name]⟩
      (fields.flatMap Field.text ++ rest) result := by
  induction fields generalizing old with
  | nil =>
      rw [List.filterMap_nil, List.append_nil] at hrest
      exact hrest
  | cons field fields ih =>
      obtain ⟨key, hkey, found?⟩ := field
      rw [List.flatMap_cons, List.append_assoc]
      cases found? with
      | none =>
          refine ih (hnodup.sublist ?_) hrest
          exact (List.sublist_cons_self key _).append_left _
      | some found =>
          have hnew : key ∉ old.map Prod.fst := fun hmem =>
            (List.nodup_append.mp hnodup).2.2 _ hmem _ List.mem_cons_self rfl
          refine Leads.line hkey found (add_assignment h hnew found.value) (ih ?_ ?_)
          · rw [List.map_append, List.append_assoc]
            exact hnodup
          · rw [List.append_assoc]
            exact hrest

theorem Leads.part (current : List Text) {part : Section} (h : part.key ∉ entries.map Prod.fst)
    (hrest : Leads ⟨entries ++ [part.entry], [part.key]⟩ rest result) :
    Leads ⟨entries, current⟩ (part.text ++ rest) result := by
  rw [Section.text, List.append_assoc]
  refine Leads.header part.isBareKey (add_header h current) (Leads.fields h ?_ hrest)
  exact part.nodup

theorem exists_leads_sections (entries : Entries) (current : List Text) {parts : List Section}
    (hnodup : (entries.map Prod.fst ++ parts.map Section.key).Nodup) :
    ∃ last, Leads ⟨entries, current⟩ (Text.joinWith ['\n'] (parts.map Section.text))
      ⟨entries ++ parts.map Section.entry, last⟩ := by
  induction parts generalizing entries current with
  | nil =>
      refine ⟨current, ?_⟩
      simp only [List.map_nil, List.append_nil]
      exact Leads.nil _
  | cons part parts ih =>
      have hpart : part.key ∉ entries.map Prod.fst := fun hmem =>
        (List.nodup_append.mp hnodup).2.2 _ hmem _ List.mem_cons_self rfl
      have hparts : ((entries ++ [part.entry]).map Prod.fst ++ parts.map Section.key).Nodup := by
        rw [List.map_append, List.append_assoc]
        exact hnodup
      obtain ⟨last, hlast⟩ := ih (entries ++ [part.entry]) [part.key] hparts
      rw [List.append_assoc] at hlast
      refine ⟨last, ?_⟩
      match parts with
      | [] =>
          have hread := Leads.part current hpart hlast
          rw [List.map_nil, Text.joinWith, List.append_nil] at hread
          exact hread
      | next :: parts =>
          have hread := Leads.part current hpart hlast.lineFeed
          have hjoined : Text.joinWith ['\n'] ((part :: next :: parts).map Section.text) =
              part.text ++ '\n' :: Text.joinWith ['\n'] ((next :: parts).map Section.text) := by
            simp [Text.joinWith]
          rw [hjoined]
          exact hread

/-- A written document is read as the tables that its sections are. -/
theorem parse_sections {parts : List Section} (hnodup : (parts.map Section.key).Nodup) :
    parse (Text.joinWith ['\n'] (parts.map Section.text)) = .ok (parts.map Section.entry) := by
  obtain ⟨last, hleads⟩ := exists_leads_sections [] [] hnodup
  have hunmarked : unmarked (Text.joinWith ['\n'] (parts.map Section.text)) =
      Text.joinWith ['\n'] (parts.map Section.text) := by
    have hbracket : ∀ t, unmarked ('\x5b' :: t) = '\x5b' :: t := by
      intro t
      rw [unmarked, Text.dropLead, Text.after?, if_neg (by decide)]
      rfl
    rcases parts with _ | ⟨part, _ | ⟨next, rest⟩⟩
    · rfl
    · exact hbracket _
    · exact hbracket _
  rw [parse, hunmarked, Draft.empty, hleads _ (Nat.lt_succ_self _)]
  rfl

end Toml

end SampleHarvest
