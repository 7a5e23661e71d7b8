import Mathlib.Data.List.Infix
import Mathlib.Data.List.Pairwise
import Mathlib.Tactic.WLOG
import SampleHarvest.Text.Basic

/-!
# Expansion in one pass

A text is gone through once, from left to right. Where a placeholder of a table begins, its value is
put and the text goes on behind the placeholder; every other character stays. What has been put in is
never looked at. Replacing a pattern is the expansion by a table with one row.

Texts that are put together can be expanded one by one if no placeholder can begin in one of them and
end in the next. And two expansions one after the other are a single one, with the values of the
first table expanded by the second, if no placeholder of the second can form at the ends of a value.
-/

namespace SampleHarvest

namespace Text

/-- Placeholders with their values. -/
abbrev Table := List (Text × Text)

/-- Goes through a text, leaving out `skip` characters and then putting its value for every
placeholder. -/
def expandFrom (table : Table) : (skip : Nat) → Text → Text
  | _, [] => []
  | skip + 1, _ :: t => expandFrom table skip t
  | 0, c :: t =>
    match table.find? fun row => startsWith (c :: t) row.1 with
    | some row => row.2 ++ expandFrom table (row.1.length - 1) t
    | none => c :: expandFrom table 0 t

/-- Puts their values for the leftmost non-overlapping placeholders of a text. -/
def expand (table : Table) (t : Text) : Text := expandFrom table 0 t

/-- The second text is the first one with all placeholders expanded in one pass. -/
inductive Expands (table : Table) : Text → Text → Prop where
  | nil : Expands table [] []
  | placeholder {row : Text × Text} {t r : Text} (hrow : row ∈ table)
      (rest : Expands table t r) : Expands table (row.1 ++ t) (row.2 ++ r)
  | plain {c : Char} {t r : Text} (hplain : ∀ row ∈ table, ¬row.1 <+: c :: t)
      (rest : Expands table t r) : Expands table (c :: t) (c :: r)

/-- No placeholder is empty and none begins with another. -/
def Unambiguous (placeholders : List Text) : Prop :=
  [] ∉ placeholders ∧ placeholders.Pairwise fun a b => ¬a <+: b ∧ ¬b <+: a

instance (placeholders : List Text) : Decidable (Unambiguous placeholders) :=
  inferInstanceAs (Decidable (_ ∧ _))

variable {table : Table} {row : Text × Text} {c : Char} {t r : Text}

theorem unambiguous_singleton {pattern : Text} (h : pattern ≠ []) (value : Text) :
    Unambiguous ([(pattern, value)].map Prod.fst) :=
  ⟨fun hmem => h (List.mem_singleton.mp hmem).symm, List.pairwise_singleton _ _⟩

namespace Unambiguous

theorem ne_nil (h : Unambiguous (table.map Prod.fst)) (hrow : row ∈ table) : row.1 ≠ [] := by
  intro hnil
  apply h.1
  rw [← hnil]
  exact List.mem_map_of_mem hrow

/-- At most one row has a placeholder that begins a text. -/
theorem eq_of_prefix (h : Unambiguous (table.map Prod.fst)) (hrow : row ∈ table)
    {other : Text × Text} (hother : other ∈ table) (hleads : row.1 <+: other.1) :
    row = other := by
  by_contra hne
  have hpairs := List.pairwise_map.mp h.2
  have hsymm : Std.Symm fun a b : Text × Text => ¬a.1 <+: b.1 ∧ ¬b.1 <+: a.1 :=
    ⟨fun _ _ => And.symm⟩
  exact (hpairs.forall hrow hother hne).1 hleads

end Unambiguous

/-! ### The function and the relation -/

theorem expandFrom_eq (table : Table) (skip : Nat) (t : Text) :
    expandFrom table skip t = expand table (t.drop skip) := by
  induction t generalizing skip with
  | nil =>
      rw [List.drop_nil, expand]
      cases skip <;> rfl
  | cons c t ih =>
      cases skip with
      | zero => rfl
      | succ skip =>
          rw [expandFrom, ih]
          rfl

theorem expand_placeholder (htable : Unambiguous (table.map Prod.fst)) (hrow : row ∈ table)
    (t : Text) : expand table (row.1 ++ t) = row.2 ++ expand table t := by
  obtain ⟨c, p, hp⟩ := List.exists_cons_of_ne_nil (htable.ne_nil hrow)
  have hbegins : startsWith (c :: (p ++ t)) row.1 := by
    rw [hp]
    exact List.isPrefixOf_iff_prefix.mpr (List.prefix_append (c :: p) t)
  have hfound : (table.find? fun other => startsWith (c :: (p ++ t)) other.1) = some row := by
    cases hfind : table.find? fun other => startsWith (c :: (p ++ t)) other.1 with
    | none => exact absurd hbegins (List.find?_eq_none.mp hfind row hrow)
    | some other =>
        have hother := List.mem_of_find?_eq_some hfind
        have hstarts : startsWith (c :: (p ++ t)) other.1 := by
          simpa using List.find?_some hfind
        rcases List.prefix_or_prefix_of_prefix (List.isPrefixOf_iff_prefix.mp hbegins)
            (List.isPrefixOf_iff_prefix.mp hstarts) with h | h
        · rw [htable.eq_of_prefix hrow hother h]
        · rw [htable.eq_of_prefix hother hrow h]
  have hlength : row.1.length - 1 = p.length := by rw [hp, List.length_cons, Nat.add_sub_cancel]
  rw [hp, List.cons_append, expand, expandFrom, hfound]
  dsimp only
  rw [hlength, expandFrom_eq, List.drop_left]

theorem expand_plain (hplain : ∀ row ∈ table, ¬row.1 <+: c :: t) :
    expand table (c :: t) = c :: expand table t := by
  have hnone : (table.find? fun row => startsWith (c :: t) row.1) = none :=
    List.find?_eq_none.mpr fun row hrow hstarts =>
      hplain row hrow (List.isPrefixOf_iff_prefix.mp hstarts)
  rw [expand, expandFrom, hnone]
  rfl

theorem expands_expand (htable : Unambiguous (table.map Prod.fst)) (t : Text) :
    Expands table t (expand table t) := by
  -- The text behind a placeholder is shorter, but no part of the structure of the text.
  induction hlength : t.length using Nat.strongRecOn generalizing t with
  | ind n ih =>
      cases t with
      | nil => exact Expands.nil
      | cons c t =>
          rw [List.length_cons] at hlength
          by_cases hsome : ∃ row ∈ table, row.1 <+: c :: t
          · obtain ⟨row, hrow, rest, hrest⟩ := hsome
            have hshorter := congrArg List.length hrest
            have hpositive := List.length_pos_of_ne_nil (htable.ne_nil hrow)
            rw [List.length_append, List.length_cons] at hshorter
            rw [← hrest, expand_placeholder htable hrow]
            exact Expands.placeholder hrow (ih rest.length (by omega) rest rfl)
          · have hplain : ∀ row ∈ table, ¬row.1 <+: c :: t :=
              fun row hrow hleads => hsome ⟨row, hrow, hleads⟩
            rw [expand_plain hplain]
            exact Expands.plain hplain (ih t.length (by omega) t rfl)

theorem expands_iff (htable : Unambiguous (table.map Prod.fst)) :
    Expands table t r ↔ expand table t = r := by
  constructor
  · intro h
    induction h with
    | nil => rfl
    | placeholder hrow _ ih => rw [expand_placeholder htable hrow, ih]
    | plain hplain _ ih => rw [expand_plain hplain, ih]
  · rintro rfl
    exact expands_expand htable t

theorem replaceAll_eq_expand {pattern : Text} (hpattern : pattern ≠ []) (value t : Text) :
    replaceAll pattern value t = expand [(pattern, value)] t := by
  suffices h : ∀ skip, replaceFrom pattern value skip t = expandFrom [(pattern, value)] skip t by
    rw [replaceAll, List.isEmpty_eq_false_iff.mpr hpattern]
    exact h 0
  induction t with
  | nil => intro skip; cases skip <;> rfl
  | cons c t ih =>
      intro skip
      cases skip with
      | succ skip => exact ih skip
      | zero =>
          rw [replaceFrom, expandFrom]
          by_cases hstarts : startsWith (c :: t) pattern
          · simp [hstarts, ih]
          · simp [hstarts, ih]

theorem expands_replaceAll_iff {pattern value : Text} (hpattern : pattern ≠ []) :
    Expands [(pattern, value)] t r ↔ replaceAll pattern value t = r := by
  rw [replaceAll_eq_expand hpattern]
  exact expands_iff (unambiguous_singleton hpattern value)

theorem expands_replaceAll {pattern : Text} (hpattern : pattern ≠ []) (value t : Text) :
    Expands [(pattern, value)] t (replaceAll pattern value t) :=
  (expands_replaceAll_iff hpattern).mpr rfl

/-! ### Texts put together -/

/-- No end of the first text is a beginning of the second one. -/
def EndsApart (a b : Text) : Prop := ∀ part, part ≠ [] → part <:+ a → ¬part <+: b

instance (a b : Text) : Decidable (EndsApart a b) :=
  decidable_of_iff (∀ part ∈ a.tails, part ≠ [] → ¬part <+: b) (by
    simp only [EndsApart, List.mem_tails]
    exact ⟨fun h part hne hend => h part hend hne, fun h part hend hne => h part hne hend⟩)

theorem endsApart_of_getLast? {a b : Text} (h : ∀ c ∈ a.getLast?, c ∉ b) : EndsApart a b := by
  rintro part hne ⟨front, rfl⟩ hpart
  have hlast := List.getLast?_eq_some_getLast hne
  refine h (part.getLast hne) ?_ (hpart.subset (List.getLast_mem hne))
  rw [List.getLast?_append, hlast]
  rfl

/-- A text ends apart from all that begins with a character that the text lacks. -/
theorem endsApart_of_head? {a b : Text} (h : ∀ c ∈ b.head?, c ∉ a) : EndsApart a b := by
  rintro part hne hpart ⟨rest, rfl⟩
  obtain ⟨c, others, rfl⟩ := List.exists_cons_of_ne_nil hne
  exact h c rfl (hpart.subset List.mem_cons_self)

/-- A pattern that cannot lie across the place where two texts meet occurs in one of them. -/
theorem infix_append_iff_of_endsApart {pattern a b : Text}
    (h : EndsApart a pattern ∨ EndsApart pattern b) :
    pattern <:+: a ++ b ↔ pattern <:+: a ∨ pattern <:+: b := by
  rw [List.infix_append_iff]
  constructor
  · rintro (hin | hin | ⟨front, back, rfl, hfront, hback⟩)
    · exact Or.inl hin
    · exact Or.inr hin
    · rcases h with hapart | hapart
      · by_cases hnil : front = []
        · rw [hnil]
          exact Or.inr hback.isInfix
        · exact absurd (List.prefix_append front back) (hapart front hnil hfront)
      · by_cases hnil : back = []
        · rw [hnil, List.append_nil]
          exact Or.inl hfront.isInfix
        · exact absurd hback (hapart back hnil (List.suffix_append front back))
  · exact Or.imp_right Or.inl

/-- Texts are expanded one by one if no placeholder begins in the first and ends in the second. -/
theorem Expands.append {a b s : Text} (ha : Expands table a r) (hb : Expands table b s)
    (hapart : ∀ row ∈ table, EndsApart a row.1) : Expands table (a ++ b) (r ++ s) := by
  induction ha with
  | nil => exact hb
  | placeholder hrow _ ih =>
      rw [List.append_assoc, List.append_assoc]
      apply Expands.placeholder hrow
      apply ih
      intro other hother part hne hend
      exact hapart other hother part hne (hend.trans (List.suffix_append _ _))
  | @plain c t r hplain _ ih =>
      apply Expands.plain
      · intro row hrow hleads
        rcases List.prefix_or_prefix_of_prefix hleads (List.prefix_append (c :: t) b) with h | h
        · exact hplain row hrow h
        · exact hapart row hrow (c :: t) (List.cons_ne_nil c t) List.suffix_rfl h
      · apply ih
        intro row hrow part hne hend
        exact hapart row hrow part hne (hend.trans (List.suffix_cons c t))

/-- A text without placeholders stays as it is. -/
theorem Expands.eq_self (h : Expands table t r) (hnone : ∀ row ∈ table, ¬row.1 <:+: t) : r = t := by
  induction h with
  | nil => rfl
  | placeholder hrow _ _ => exact absurd (List.prefix_append _ _).isInfix (hnone _ hrow)
  | @plain c t r _ _ ih =>
      rw [ih fun row hrow hholds => hnone row hrow (hholds.trans (List.suffix_cons c t).isInfix)]

/-- Placeholders that stand for themselves change nothing. -/
theorem Expands.eq_self_of_values (h : Expands table t r) (hsame : ∀ row ∈ table, row.2 = row.1) :
    r = t := by
  induction h with
  | nil => rfl
  | placeholder hrow _ ih => rw [hsame _ hrow, ih]
  | plain _ _ ih => rw [ih]

theorem replaceAll_of_absent {pattern : Text} (h : ¬pattern <:+: t) (value : Text) :
    replaceAll pattern value t = t := by
  have hpattern : pattern ≠ [] := by
    rintro rfl
    exact h List.nil_infix
  apply (expands_replaceAll hpattern value t).eq_self
  intro row hrow
  rwa [List.mem_singleton.mp hrow]

/-! ### Values that a pattern cannot reach into -/

/-- No occurrence of the pattern holds a part of the value and something beside the value. -/
structure Detached (value pattern : Text) : Prop where
  ends_apart : EndsApart value pattern
  begins_apart : EndsApart pattern value
  not_within : ¬value <:+: pattern

/-- What begins an expansion and is an end of a pattern that no value touches begins the text. -/
theorem Expands.prefix_of_result (h : Expands table t r) {pattern : Text}
    (hdetached : ∀ row ∈ table, Detached row.2 pattern) {part : Text} (hpart : part <:+ pattern)
    (hleads : part <+: r) : part <+: t := by
  induction h generalizing part with
  | nil => exact hleads
  | @placeholder row t r hrow _ _ =>
      rcases List.prefix_or_prefix_of_prefix hleads (List.prefix_append row.2 r) with hin | hover
      · by_cases hnil : part = []
        · rw [hnil]
          exact List.nil_prefix
        · exact absurd hin ((hdetached row hrow).begins_apart part hnil hpart)
      · exact absurd (hover.isInfix.trans hpart.isInfix) (hdetached row hrow).not_within
  | @plain c t r _ _ ih =>
      cases part with
      | nil => exact List.nil_prefix
      | cons d part =>
          obtain ⟨rfl, hrest⟩ := List.cons_prefix_cons.mp hleads
          have hend : part <:+ pattern := (List.suffix_cons d part).trans hpart
          exact List.cons_prefix_cons.mpr ⟨rfl, ih hend hrest⟩

/-- Where values are put that do not touch the pattern and do not hold it, no pattern is left. -/
theorem Expands.absent {pattern value : Text} (h : Expands [(pattern, value)] t r)
    (hpattern : pattern ≠ []) (hdetached : Detached value pattern) (hvalue : ¬pattern <:+: value) :
    ¬pattern <:+: r := by
  induction h with
  | nil => exact fun hholds => hpattern (List.infix_nil.mp hholds)
  | placeholder hrow _ ih =>
      obtain rfl := List.mem_singleton.mp hrow
      rw [infix_append_iff_of_endsApart (Or.inl hdetached.ends_apart)]
      exact not_or.mpr ⟨hvalue, ih⟩
  | @plain c t r hplain hrest ih =>
      intro hholds
      rcases List.infix_cons_iff.mp hholds with hleads | hin
      · obtain ⟨d, part, rfl⟩ := List.exists_cons_of_ne_nil hpattern
        obtain ⟨rfl, hpart⟩ := List.cons_prefix_cons.mp hleads
        have hrows : ∀ row ∈ [(d :: part, value)], Detached row.2 (d :: part) := by
          intro row hrow
          rwa [List.mem_singleton.mp hrow]
        have hbegins := hrest.prefix_of_result hrows (List.suffix_cons d part) hpart
        exact hplain _ (List.mem_singleton_self _) (List.cons_prefix_cons.mpr ⟨rfl, hbegins⟩)
      · exact ih hin

/-! ### One expansion after another -/

/-- A table with one more row, by which its own values are expanded. -/
def Table.andThen (table : Table) (pattern value : Text) : Table :=
  table.map (fun row => (row.1, replaceAll pattern value row.2)) ++ [(pattern, value)]

theorem Table.map_fst_andThen (table : Table) (pattern value : Text) :
    (table.andThen pattern value).map Prod.fst = table.map Prod.fst ++ [pattern] := by
  simp [andThen]

/-- **A replacement after an expansion.** If the pattern does not touch the values and the
placeholders do not touch the pattern, both can be made in one pass, in which the values of the
placeholders are those with the pattern replaced. -/
theorem replaceAll_expand {pattern : Text} (value : Text)
    (htable : Unambiguous (table.map Prod.fst ++ [pattern]))
    (hvalues : ∀ row ∈ table, Detached row.2 pattern)
    (hplaceholders : ∀ row ∈ table, EndsApart pattern row.1 ∧ ¬row.1 <:+: pattern) (t : Text) :
    replaceAll pattern value (expand table t) = expand (table.andThen pattern value) t := by
  have hpattern : pattern ≠ [] := fun hnil => htable.1 (by simp [hnil])
  have hrows : Unambiguous (table.map Prod.fst) :=
    ⟨fun hmem => htable.1 (List.mem_append_left _ hmem), (List.pairwise_append.mp htable.2).1⟩
  have hwhole : Expands (table.andThen pattern value) t (expand (table.andThen pattern value) t) := by
    apply expands_expand
    rwa [Table.map_fst_andThen]
  generalize expand (table.andThen pattern value) t = r at hwhole ⊢
  rw [← expands_replaceAll_iff hpattern]
  induction hwhole with
  | nil => exact Expands.nil
  | @placeholder row t r hrow _ ih =>
      rcases List.mem_append.mp hrow with hmem | hlast
      · obtain ⟨first, hfirst, rfl⟩ := List.mem_map.mp hmem
        rw [expand_placeholder hrows hfirst]
        apply (expands_replaceAll hpattern value first.2).append ih
        intro other hother
        rw [List.mem_singleton.mp hother]
        exact (hvalues first hfirst).ends_apart
      · -- The pattern itself is left by the first expansion.
        obtain rfl := List.mem_singleton.mp hlast
        have hself : Expands table pattern pattern := by
          have hexpands := expands_expand hrows pattern
          rwa [hexpands.eq_self fun row hrow => (hplaceholders row hrow).2] at hexpands
        have hsplit := hself.append (expands_expand hrows t) fun row hrow =>
          (hplaceholders row hrow).1
        rw [(expands_iff hrows).mp hsplit]
        exact Expands.placeholder (List.mem_singleton_self _) ih
  | @plain c t r hplain _ ih =>
      have hrest : ∀ row ∈ table, ¬row.1 <+: c :: t := by
        intro row hrow
        have hmem : (row.1, replaceAll pattern value row.2) ∈ table.andThen pattern value :=
          List.mem_append_left _ (List.mem_map.mpr ⟨row, hrow, rfl⟩)
        exact hplain (row.1, replaceAll pattern value row.2) hmem
      rw [expand_plain hrest]
      apply Expands.plain _ ih
      intro row hrow hleads
      obtain rfl := List.mem_singleton.mp hrow
      obtain ⟨d, part, rfl⟩ := List.exists_cons_of_ne_nil hpattern
      obtain ⟨rfl, hpart⟩ := List.cons_prefix_cons.mp hleads
      have hbegins := (expands_expand hrows t).prefix_of_result hvalues (List.suffix_cons d part) hpart
      exact hplain _ (List.mem_append_right _ (List.mem_singleton_self _))
        (List.cons_prefix_cons.mpr ⟨rfl, hbegins⟩)

/-! ### Different values -/

section Values

variable {placeholder value other : Text} {rest : Table}

theorem forall_not_prefix_cons (hplain : ∀ row ∈ (placeholder, value) :: rest, ¬row.1 <+: t)
    (other : Text) : ∀ row ∈ (placeholder, other) :: rest, ¬row.1 <+: t := by
  obtain ⟨hfirst, hrest⟩ := List.forall_mem_cons.mp hplain
  exact List.forall_mem_cons.mpr ⟨hfirst, hrest⟩

theorem length_expand_le (htable : Unambiguous (((placeholder, value) :: rest).map Prod.fst))
    (hle : value.length ≤ other.length) (t : Text) :
    (expand ((placeholder, value) :: rest) t).length ≤
      (expand ((placeholder, other) :: rest) t).length := by
  have hother : Unambiguous (((placeholder, other) :: rest).map Prod.fst) := htable
  have hexpands := expands_expand htable t
  generalize expand ((placeholder, value) :: rest) t = r at hexpands ⊢
  induction hexpands with
  | nil => exact Nat.zero_le _
  | placeholder hrow _ ih =>
      rcases List.mem_cons.mp hrow with rfl | hrow
      · rw [expand_placeholder hother List.mem_cons_self, List.length_append, List.length_append]
        exact Nat.add_le_add hle ih
      · rw [expand_placeholder hother (List.mem_cons_of_mem _ hrow), List.length_append,
          List.length_append]
        exact Nat.add_le_add_left ih _
  | plain hplain _ ih =>
      rw [expand_plain (forall_not_prefix_cons hplain other), List.length_cons, List.length_cons]
      exact Nat.succ_le_succ ih

/-- The expansion of a text that holds a placeholder tells the value of this placeholder. -/
theorem expand_injective (htable : Unambiguous (((placeholder, value) :: rest).map Prod.fst))
    (hrest : ∀ row ∈ rest, EndsApart row.1 placeholder ∧ ¬placeholder <:+: row.1)
    (hoccurs : placeholder <:+: t)
    (heq : expand ((placeholder, value) :: rest) t = expand ((placeholder, other) :: rest) t) :
    value = other := by
  have hother : Unambiguous (((placeholder, other) :: rest).map Prod.fst) := htable
  wlog hle : value.length ≤ other.length generalizing value other
  · exact (this hother heq.symm htable (Nat.le_of_not_le hle)).symm
  have hexpands := expands_expand htable t
  generalize expand ((placeholder, value) :: rest) t = r at hexpands heq
  induction hexpands with
  | nil => exact absurd (List.infix_nil.mp hoccurs) (htable.ne_nil List.mem_cons_self)
  | @placeholder row t r hrow hbehind ih =>
      rcases List.mem_cons.mp hrow with rfl | hrow
      · -- What follows is no shorter with the longer value, so the values are of one length.
        have hbehindLe := length_expand_le htable hle t
        rw [(expands_iff htable).mp hbehind] at hbehindLe
        rw [expand_placeholder hother List.mem_cons_self] at heq
        have hlengths := congrArg List.length heq
        rw [List.length_append, List.length_append] at hlengths
        exact (List.append_inj heq (by dsimp only at hlengths ⊢; omega)).1
      · rw [expand_placeholder hother (List.mem_cons_of_mem _ hrow)] at heq
        obtain ⟨hapart, hnot⟩ := hrest row hrow
        rw [infix_append_iff_of_endsApart (Or.inl hapart)] at hoccurs
        exact ih (hoccurs.resolve_left hnot) (List.append_cancel_left heq)
  | @plain c t r hplain _ ih =>
      have hnext : placeholder <:+: t := by
        rcases List.infix_cons_iff.mp hoccurs with hleads | hin
        · exact absurd hleads (hplain (placeholder, value) List.mem_cons_self)
        · exact hin
      rw [expand_plain (forall_not_prefix_cons hplain other)] at heq
      exact ih hnext (List.cons.inj heq).2

/-- Expansions with two values of a placeholder are equal if the values are, or if the text does not
hold the placeholder. -/
theorem expand_eq_iff (htable : Unambiguous (((placeholder, value) :: rest).map Prod.fst))
    (hrest : ∀ row ∈ rest, EndsApart row.1 placeholder ∧ ¬placeholder <:+: row.1) :
    expand ((placeholder, value) :: rest) t = expand ((placeholder, other) :: rest) t ↔
      (placeholder <:+: t → value = other) := by
  refine ⟨fun heq hoccurs => expand_injective htable hrest hoccurs heq, fun h => ?_⟩
  by_cases hoccurs : placeholder <:+: t
  · rw [h hoccurs]
  · have hother : Unambiguous (((placeholder, other) :: rest).map Prod.fst) := htable
    have hexpands := expands_expand htable t
    clear h
    generalize expand ((placeholder, value) :: rest) t = r at hexpands ⊢
    induction hexpands with
    | nil => rfl
    | @placeholder row t r hrow _ ih =>
        rcases List.mem_cons.mp hrow with rfl | hrow
        · exact absurd (List.prefix_append placeholder t).isInfix hoccurs
        · rw [expand_placeholder hother (List.mem_cons_of_mem _ hrow),
            ih fun hin => hoccurs (hin.trans (List.suffix_append row.1 t).isInfix)]
    | @plain c t r hplain _ ih =>
        rw [expand_plain (forall_not_prefix_cons hplain other),
          ih fun hin => hoccurs (hin.trans (List.suffix_cons c t).isInfix)]

/-- A replacement by something else leaves a text as it is only if there is nothing to replace. -/
theorem replaceAll_eq_self_iff {pattern : Text} (hpattern : pattern ≠ []) (hvalue : value ≠ pattern) :
    replaceAll pattern value t = t ↔ ¬pattern <:+: t := by
  constructor
  · intro heq hoccurs
    have hself : expand [(pattern, pattern)] t = t := by
      apply (expands_expand (unambiguous_singleton hpattern pattern) t).eq_self_of_values
      intro row hrow
      rw [List.mem_singleton.mp hrow]
    rw [replaceAll_eq_expand hpattern] at heq
    apply hvalue
    apply expand_injective (unambiguous_singleton hpattern value) (List.forall_mem_nil _) hoccurs
    rw [heq, hself]
  · exact fun h => replaceAll_of_absent h value

end Values

end Text

end SampleHarvest
