import SampleHarvest.Proofs.Text.Expansion

/-!
# Replacements are counted

A text holds a pattern at some number of places. If no end of the pattern begins it again, these
places lie apart, and a replacement puts the value at all of them. To put it at some of them only
gives another text, unless the value is the pattern itself.

An expansion in one pass puts its values at the places where a placeholder stands in the text. So a
replacement that comes after others does the same as one pass exactly if there are as many places in
what the others have left as in the text: values that were put in must neither bring the pattern nor
complete it.

If all placeholders begin with one sign, values without it bring none. Then the whole result tells
whether a step has done more than one pass does, since every replacement takes one sign away.
-/

namespace SampleHarvest

namespace Text

/-- The number of places where a text holds a pattern. -/
def occurrences (pattern : Text) : Text → Nat
  | [] => 0
  | c :: t => (if startsWith (c :: t) pattern then 1 else 0) + occurrences pattern t

/-- The pattern is not empty, and no end of it begins it again. -/
def IsUnbordered (pattern : Text) : Prop := pattern ≠ [] ∧ EndsApart pattern.tail pattern

instance (pattern : Text) : Decidable (IsUnbordered pattern) := inferInstanceAs (Decidable (_ ∧ _))

/-- The second text is the first one with the value at this many places of the pattern. -/
inductive Replaces (pattern value : Text) : Nat → Text → Text → Prop where
  | nil : Replaces pattern value 0 [] []
  | keep {n : Nat} {t r : Text} (c : Char) (rest : Replaces pattern value n t r) :
      Replaces pattern value n (c :: t) (c :: r)
  | put {n : Nat} {t r : Text} (rest : Replaces pattern value n t r) :
      Replaces pattern value (n + 1) (pattern ++ t) (value ++ r)

variable {pattern value t r s : Text} {c : Char} {n : Nat}

/-! ### Counting -/

theorem occurrences_of_leads (h : pattern <+: c :: t) :
    occurrences pattern (c :: t) = occurrences pattern t + 1 := by
  have hstarts : startsWith (c :: t) pattern := List.isPrefixOf_iff_prefix.mpr h
  rw [occurrences, if_pos hstarts, Nat.add_comm]

theorem occurrences_of_not_leads (h : ¬pattern <+: c :: t) :
    occurrences pattern (c :: t) = occurrences pattern t := by
  have hstarts : ¬startsWith (c :: t) pattern := mt List.isPrefixOf_iff_prefix.mp h
  rw [occurrences, if_neg hstarts, Nat.zero_add]

theorem occurrences_le_cons (pattern : Text) (c : Char) (t : Text) :
    occurrences pattern t ≤ occurrences pattern (c :: t) :=
  Nat.le_add_left _ _

theorem occurrences_le_append (pattern s t : Text) :
    occurrences pattern t ≤ occurrences pattern (s ++ t) := by
  induction s with
  | nil => exact Nat.le_refl _
  | cons c s ih => exact ih.trans (occurrences_le_cons pattern c (s ++ t))

/-- No place of the pattern begins in a text that does not hold it and ends apart from it. -/
theorem occurrences_append (hapart : EndsApart s pattern) (hnot : ¬pattern <:+: s) (t : Text) :
    occurrences pattern (s ++ t) = occurrences pattern t := by
  induction s with
  | nil => rfl
  | cons c s ih =>
      have hplain : ¬pattern <+: c :: (s ++ t) := by
        intro hleads
        rcases List.prefix_or_prefix_of_prefix hleads (List.prefix_append (c :: s) t) with h | h
        · exact hnot h.isInfix
        · exact hapart (c :: s) (List.cons_ne_nil c s) List.suffix_rfl h
      rw [List.cons_append, occurrences_of_not_leads hplain]
      apply ih
      · exact fun part hne hend => hapart part hne (hend.trans (List.suffix_cons c s))
      · exact fun hin => hnot (hin.trans (List.suffix_cons c s).isInfix)

/-- Behind the place where an unbordered pattern stands the next one begins after it. -/
theorem IsUnbordered.occurrences_append (h : IsUnbordered pattern) (t : Text) :
    occurrences pattern (pattern ++ t) = occurrences pattern t + 1 := by
  obtain ⟨c, p, rfl⟩ := List.exists_cons_of_ne_nil h.1
  have hapart : EndsApart p (c :: p) := h.2
  have hnot : ¬c :: p <:+: p := fun hin => by
    have hlength := hin.length_le
    rw [List.length_cons] at hlength
    omega
  have hleads : c :: p <+: c :: (p ++ t) := List.prefix_append (c :: p) t
  rw [List.cons_append, occurrences_of_leads hleads, Text.occurrences_append hapart hnot]

/-! ### Putting a value at some of the places -/

theorem replaceAll_append_of_pattern (hpattern : pattern ≠ []) (value t : Text) :
    replaceAll pattern value (pattern ++ t) = value ++ replaceAll pattern value t := by
  rw [replaceAll_eq_expand hpattern, replaceAll_eq_expand hpattern]
  exact expand_placeholder (unambiguous_singleton hpattern value) (List.mem_singleton_self _) t

theorem replaceAll_cons_of_not_leads (hpattern : pattern ≠ []) (h : ¬pattern <+: c :: t)
    (value : Text) : replaceAll pattern value (c :: t) = c :: replaceAll pattern value t := by
  rw [replaceAll_eq_expand hpattern, replaceAll_eq_expand hpattern]
  apply expand_plain
  intro row hrow
  rwa [List.mem_singleton.mp hrow]

namespace Replaces

theorem append_left (h : Replaces pattern value n t r) (s : Text) :
    Replaces pattern value n (s ++ t) (s ++ r) := by
  induction s with
  | nil => exact h
  | cons c s ih => exact ih.keep c

theorem eq_self (h : Replaces pattern pattern n t r) : r = t := by
  induction h with
  | nil => rfl
  | keep c _ ih => rw [ih]
  | put _ ih => rw [ih]

theorem le_occurrences (hpattern : pattern ≠ []) (h : Replaces pattern value n t r) :
    n ≤ occurrences pattern t := by
  induction h with
  | nil => exact Nat.zero_le _
  | keep c _ ih => exact ih.trans (occurrences_le_cons pattern c _)
  | @put n t r _ ih =>
      obtain ⟨c, p, rfl⟩ := List.exists_cons_of_ne_nil hpattern
      have hleads : c :: p <+: c :: (p ++ t) := List.prefix_append (c :: p) t
      rw [List.cons_append, occurrences_of_leads hleads]
      exact Nat.succ_le_succ (ih.trans (occurrences_le_append _ p t))

theorem length_eq (h : Replaces pattern value n t r) :
    r.length + n * pattern.length = t.length + n * value.length := by
  induction h with
  | nil => simp
  | keep c _ ih =>
      rw [List.length_cons, List.length_cons]
      omega
  | put _ ih =>
      rw [List.length_append, List.length_append, Nat.succ_mul, Nat.succ_mul]
      omega

/-- A value that is put at all places of an unbordered pattern is put by the replacement. -/
theorem eq_replaceAll (hborder : IsUnbordered pattern) (h : Replaces pattern value n t r)
    (hall : n = occurrences pattern t) : r = replaceAll pattern value t := by
  induction h with
  | nil => rw [replaceAll_of_absent (mt List.infix_nil.mp hborder.1)]
  | @keep n t r c hrest ih =>
      -- A place that is passed over would be one too few.
      have hplain : ¬pattern <+: c :: t := by
        intro hleads
        have hle := hrest.le_occurrences hborder.1
        rw [occurrences_of_leads hleads] at hall
        omega
      rw [occurrences_of_not_leads hplain] at hall
      rw [replaceAll_cons_of_not_leads hborder.1 hplain, ih hall]
  | put hrest ih =>
      rw [hborder.occurrences_append] at hall
      rw [replaceAll_append_of_pattern hborder.1, ih (Nat.succ.inj hall)]

theorem replaceAll_self (hborder : IsUnbordered pattern) (value t : Text) :
    Replaces pattern value (occurrences pattern t) t (replaceAll pattern value t) := by
  have hexpands := expands_replaceAll hborder.1 value t
  generalize replaceAll pattern value t = r at hexpands ⊢
  induction hexpands with
  | nil => exact .nil
  | placeholder hrow _ ih =>
      obtain rfl := List.mem_singleton.mp hrow
      rw [hborder.occurrences_append]
      exact ih.put
  | plain hplain _ ih =>
      rw [occurrences_of_not_leads (hplain _ (List.mem_singleton_self _))]
      exact ih.keep _

/-- Within a place of an unbordered pattern no value is put. -/
theorem split_of_tail (hborder : IsUnbordered pattern) {part : Text} (hpart : part <:+ pattern.tail)
    (h : Replaces pattern value n (part ++ t) r) :
    ∃ rest, r = part ++ rest ∧ Replaces pattern value n t rest := by
  induction part generalizing r with
  | nil => exact ⟨r, rfl, h⟩
  | cons d part ih =>
      generalize hwhole : d :: part ++ t = whole at h
      cases h with
      | nil => cases hwhole
      | keep c hrest =>
          obtain ⟨rfl, rfl⟩ := List.cons.inj hwhole
          obtain ⟨rest, rfl, hbehind⟩ := ih ((List.suffix_cons d part).trans hpart) hrest
          exact ⟨rest, rfl, hbehind⟩
      | @put n t' r' hrest =>
          exfalso
          have hleads : d :: part <+: pattern ++ t' := hwhole ▸ List.prefix_append _ _
          rcases List.prefix_or_prefix_of_prefix hleads (List.prefix_append pattern t') with h | h
          · exact hborder.2 _ (List.cons_ne_nil d part) hpart h
          · have hlength := h.length_le.trans hpart.length_le
            have hpositive := List.length_pos_of_ne_nil hborder.1
            rw [List.length_tail] at hlength
            omega

/-- A value of the same length that was not put at all places leaves the pattern at one of them. -/
theorem eq_of_length_eq (hborder : IsUnbordered pattern) (hlength : value.length = pattern.length)
    (h : Replaces pattern value n t r) (hsame : r = replaceAll pattern value t) :
    value = pattern ∨ n = occurrences pattern t := by
  induction h with
  | nil => exact Or.inr rfl
  | @keep n t r c hrest ih =>
      by_cases hleads : pattern <+: c :: t
      · left
        obtain ⟨behind, hbehind⟩ := hleads
        have hfront : pattern = c :: pattern.tail ∧ t = pattern.tail ++ behind := by
          obtain ⟨d, part, rfl⟩ := List.exists_cons_of_ne_nil hborder.1
          obtain ⟨rfl, rfl⟩ := List.cons.inj hbehind
          exact ⟨rfl, rfl⟩
        rw [hfront.2] at hrest
        obtain ⟨rest, rfl, -⟩ := hrest.split_of_tail hborder List.suffix_rfl
        rw [← List.cons_append, ← hfront.1, ← hbehind, replaceAll_append_of_pattern hborder.1]
          at hsame
        exact (List.append_inj_left hsame hlength.symm).symm
      · rw [replaceAll_cons_of_not_leads hborder.1 hleads] at hsame
        rw [occurrences_of_not_leads hleads]
        exact ih (List.cons.inj hsame).2
  | put hrest ih =>
      rw [replaceAll_append_of_pattern hborder.1] at hsame
      rw [hborder.occurrences_append]
      exact (ih (List.append_cancel_left hsame)).imp_right (congrArg (· + 1))

/-- To put a value at some places is to replace the pattern exactly if these are all places, or if
the value is the pattern. -/
theorem eq_replaceAll_iff (hborder : IsUnbordered pattern) (h : Replaces pattern value n t r) :
    r = replaceAll pattern value t ↔ value = pattern ∨ n = occurrences pattern t := by
  constructor
  · intro hsame
    have hlength := h.length_eq
    have hlength' := (replaceAll_self hborder value t).length_eq
    rw [← hsame] at hlength'
    obtain ⟨more, hmore⟩ := Nat.exists_eq_add_of_le (h.le_occurrences hborder.1)
    rw [hmore, Nat.add_mul, Nat.add_mul] at hlength'
    have hproduct : more * pattern.length = more * value.length := by omega
    rcases Nat.eq_zero_or_pos more with rfl | hpositive
    · exact Or.inr hmore.symm
    · exact h.eq_of_length_eq hborder (Nat.eq_of_mul_eq_mul_left hpositive hproduct).symm hsame
  · rintro (rfl | hall)
    · rw [h.eq_self, (replaceAll_self hborder value t).eq_self]
    · exact h.eq_replaceAll hborder hall

end Replaces

/-! ### A replacement after an expansion -/

/-- Unbordered placeholders of which none holds another one or ends where another one begins. -/
structure AreSeparate (placeholders : List Text) : Prop where
  unbordered : ∀ pattern ∈ placeholders, IsUnbordered pattern
  apart : placeholders.Pairwise fun a b =>
    (EndsApart a b ∧ EndsApart b a) ∧ ¬a <:+: b ∧ ¬b <:+: a

namespace AreSeparate

variable {table : Table} {row : Text × Text}

theorem unambiguous {placeholders : List Text} (h : AreSeparate placeholders) :
    Unambiguous placeholders :=
  ⟨fun hnil => (h.unbordered [] hnil).1 rfl, h.apart.imp fun ⟨_, hab, hba⟩ =>
    ⟨fun hleads => hab hleads.isInfix, fun hleads => hba hleads.isInfix⟩⟩

theorem sublist {placeholders others : List Text} (h : AreSeparate placeholders)
    (hsub : others.Sublist placeholders) : AreSeparate others :=
  ⟨fun pattern hpattern => h.unbordered pattern (hsub.subset hpattern), h.apart.sublist hsub⟩

theorem apart_last (h : AreSeparate ((table ++ [row]).map Prod.fst)) {other : Text × Text}
    (hother : other ∈ table) :
    (EndsApart other.1 row.1 ∧ EndsApart row.1 other.1) ∧
      ¬other.1 <:+: row.1 ∧ ¬row.1 <:+: other.1 :=
  (List.pairwise_append.mp (List.pairwise_map.mp h.apart)).2.2 other hother row
    (List.mem_singleton_self row)

/-- One pass without a placeholder leaves it as it is. -/
theorem expand_append_last (h : AreSeparate ((table ++ [row]).map Prod.fst)) (t : Text) :
    expand table (row.1 ++ t) = row.1 ++ expand table t := by
  have hrows : Unambiguous (table.map Prod.fst) :=
    (h.sublist ((List.sublist_append_left table [row]).map _)).unambiguous
  have hstays : Expands table row.1 row.1 := by
    have hexpands := expands_expand hrows row.1
    rwa [hexpands.eq_self fun other hother => (h.apart_last hother).2.1] at hexpands
  have hsplit := hstays.append (expands_expand hrows t) fun other hother =>
    (h.apart_last hother).1.2
  exact (expands_iff hrows).mp hsplit

/-- One pass puts the value of its last placeholder where that placeholder stands in the text, into
what the others have left. -/
theorem replaces_expand (h : AreSeparate ((table ++ [row]).map Prod.fst)) (t : Text) :
    Replaces row.1 row.2 (occurrences row.1 t) (expand table t) (expand (table ++ [row]) t) := by
  have hlast : row ∈ table ++ [row] := List.mem_append_right _ (List.mem_singleton_self row)
  have hborder : IsUnbordered row.1 := h.unbordered _ (List.mem_map_of_mem hlast)
  have hrows : Unambiguous (table.map Prod.fst) :=
    (h.sublist ((List.sublist_append_left table [row]).map _)).unambiguous
  have hwhole := expands_expand h.unambiguous t
  generalize expand (table ++ [row]) t = r at hwhole ⊢
  induction hwhole with
  | nil => exact .nil
  | @placeholder first t r hfirst _ ih =>
      rcases List.mem_append.mp hfirst with hother | hself
      · obtain ⟨⟨hapart, -⟩, -, hnot⟩ := h.apart_last hother
        rw [expand_placeholder hrows hother, occurrences_append hapart hnot]
        exact ih.append_left first.2
      · obtain rfl := List.mem_singleton.mp hself
        rw [h.expand_append_last, hborder.occurrences_append]
        exact ih.put
  | @plain c t r hplain _ ih =>
      rw [expand_plain fun other hother => hplain other (List.mem_append_left _ hother),
        occurrences_of_not_leads (hplain row hlast)]
      exact ih.keep c

/-- What the others leave has the placeholder at least where the text has it. -/
theorem occurrences_le_expand (h : AreSeparate ((table ++ [row]).map Prod.fst)) (t : Text) :
    occurrences row.1 t ≤ occurrences row.1 (expand table t) :=
  (h.replaces_expand t).le_occurrences
    (h.unambiguous.ne_nil (List.mem_append_right _ (List.mem_singleton_self row)))

/-- A replacement after an expansion is one pass exactly if the values that were put in have not
made a new place for it, or if it changes nothing. -/
theorem replaceAll_expand_iff (h : AreSeparate ((table ++ [row]).map Prod.fst)) (t : Text) :
    replaceAll row.1 row.2 (expand table t) = expand (table ++ [row]) t ↔
      row.2 = row.1 ∨ occurrences row.1 (expand table t) = occurrences row.1 t := by
  have hborder : IsUnbordered row.1 := h.unbordered _
    (List.mem_map_of_mem (List.mem_append_right _ (List.mem_singleton_self row)))
  rw [eq_comm, (h.replaces_expand t).eq_replaceAll_iff hborder, eq_comm (a := occurrences row.1 t)]

end AreSeparate

/-! ### One replacement after the other -/

/-- Puts their values for the placeholders of a table, for one after the other in the whole text. -/
def replaceEach (table : Table) (t : Text) : Text :=
  table.foldl (fun t row => replaceAll row.1 row.2 t) t

theorem expand_nil (t : Text) : expand [] t = t := by
  have htable : Unambiguous (([] : Table).map Prod.fst) := ⟨List.not_mem_nil, List.Pairwise.nil⟩
  exact (expands_expand htable t).eq_self nofun

theorem replaceEach_concat (table : Table) (row : Text × Text) (t : Text) :
    replaceEach (table ++ [row]) t = replaceAll row.1 row.2 (replaceEach table t) := by
  rw [replaceEach, List.foldl_append]
  rfl

/-- Replacements of other placeholders leave a placeholder where the text has it. -/
theorem AreSeparate.occurrences_le_replaceEach {table : Table} {row : Text × Text}
    (h : AreSeparate ((table ++ [row]).map Prod.fst)) (t : Text) :
    occurrences row.1 t ≤ occurrences row.1 (replaceEach table t) := by
  induction table using List.reverseRecOn with
  | nil => exact Nat.le_refl _
  | append_singleton front last ih =>
      have hlast : AreSeparate (([last] ++ [row]).map Prod.fst) := by
        rw [List.append_assoc] at h
        exact h.sublist ((List.sublist_append_right front _).map _)
      have hfront : AreSeparate ((front ++ [row]).map Prod.fst) :=
        h.sublist (((List.sublist_append_left front [last]).append_right [row]).map _)
      have hborder : IsUnbordered last.1 := hlast.unbordered _ List.mem_cons_self
      have hstep := hlast.occurrences_le_expand (replaceEach front t)
      rw [← replaceAll_eq_expand hborder.1, ← replaceEach_concat] at hstep
      exact (ih hfront).trans hstep

/-- **Replacements and one pass.** Replacements one after the other do at every step what one pass
does exactly if no step meets its placeholder at more places than the text has, but for placeholders
that stand for themselves. -/
theorem replaceEach_eq_expand_iff {table : Table} (h : AreSeparate (table.map Prod.fst)) (t : Text) :
    (∀ front, front <+: table → replaceEach front t = expand front t) ↔
      ∀ front row, front ++ [row] <+: table →
        row.2 = row.1 ∨ occurrences row.1 (expand front t) = occurrences row.1 t := by
  have hseparate : ∀ front, front <+: table → AreSeparate (front.map Prod.fst) :=
    fun _ hfront => h.sublist (hfront.sublist.map _)
  constructor
  · intro hsame front row hrow
    have hfront : front <+: table := (List.prefix_append front [row]).trans hrow
    rw [← (hseparate _ hrow).replaceAll_expand_iff t, ← hsame front hfront, ← hsame _ hrow,
      replaceEach_concat]
  · intro hcounts front
    induction front using List.reverseRecOn with
    | nil => exact fun _ => (expand_nil t).symm
    | append_singleton front row ih =>
        intro hrow
        have hfront : front <+: table := (List.prefix_append front [row]).trans hrow
        rw [replaceEach_concat, ih hfront, (hseparate _ hrow).replaceAll_expand_iff t]
        exact hcounts front row hrow

/-! ### Placeholders that a sign begins -/

/-- A table that puts nothing for its placeholders. -/
def Table.blank (table : Table) : Table := table.map fun row => (row.1, [])

theorem Table.map_fst_blank (table : Table) : table.blank.map Prod.fst = table.map Prod.fst := by
  rw [blank, List.map_map]
  rfl

/-- A text begins with a sign that comes nowhere else in it. -/
def BeginsWith (sign : Char) (placeholder : Text) : Prop :=
  placeholder.head? = some sign ∧ sign ∉ placeholder.tail

instance (sign : Char) (placeholder : Text) : Decidable (BeginsWith sign placeholder) :=
  inferInstanceAs (Decidable (_ ∧ _))

section Sign

variable {sign : Char} {table front : Table} {row : Text × Text}

theorem BeginsWith.exists_cons (h : BeginsWith sign pattern) :
    ∃ rest, pattern = sign :: rest ∧ sign ∉ rest := by
  obtain ⟨rest, rfl⟩ := List.head?_eq_some_iff.mp h.1
  exact ⟨rest, rfl, h.2⟩

theorem BeginsWith.mem (h : BeginsWith sign pattern) : sign ∈ pattern :=
  List.mem_of_mem_head? h.1

theorem BeginsWith.count_eq (h : BeginsWith sign pattern) : pattern.count sign = 1 := by
  obtain ⟨rest, rfl, hrest⟩ := h.exists_cons
  rw [List.count_cons_self, List.count_eq_zero_of_not_mem hrest]

theorem BeginsWith.occurrences_append (h : BeginsWith sign pattern) (hs : sign ∉ s) (t : Text) :
    occurrences pattern (s ++ t) = occurrences pattern t := by
  apply Text.occurrences_append
  · apply endsApart_of_head?
    rw [h.1]
    rintro c ⟨rfl⟩
    exact hs
  · exact fun hin => hs (hin.subset h.mem)

theorem Replaces.count_eq (h : Replaces pattern value n t r) (hpattern : pattern.count sign = 1)
    (hvalue : sign ∉ value) : r.count sign + n = t.count sign := by
  induction h with
  | nil => rfl
  | keep c _ ih =>
      rw [List.count_cons, List.count_cons]
      omega
  | put _ ih =>
      rw [List.count_append, List.count_append, hpattern, List.count_eq_zero_of_not_mem hvalue]
      omega

/-- If no value has the sign, replacements leave it at no more places than one pass does, and at as
many places only if they are one pass. -/
theorem AreSeparate.count_replaceEach (h : AreSeparate (table.map Prod.fst))
    (hbegins : ∀ row ∈ table, BeginsWith sign row.1) (hvalues : ∀ row ∈ table, sign ∉ row.2)
    (t : Text) :
    (replaceEach table t).count sign ≤ (expand table t).count sign ∧
      ((replaceEach table t).count sign = (expand table t).count sign →
        ∀ front, front <+: table → replaceEach front t = expand front t) := by
  induction table using List.reverseRecOn with
  | nil =>
      refine ⟨by rw [expand_nil]; exact Nat.le_refl _, fun _ front hfront => ?_⟩
      rw [List.prefix_nil.mp hfront, expand_nil]
      rfl
  | append_singleton table row ih =>
      have hlast : row ∈ table ++ [row] := List.mem_append_right _ (List.mem_singleton_self row)
      have hborder : IsUnbordered row.1 := h.unbordered _ (List.mem_map_of_mem hlast)
      have hcount := (hbegins row hlast).count_eq
      obtain ⟨hle, hsame⟩ := ih (h.sublist ((List.sublist_append_left table [row]).map _))
        (fun other hother => hbegins other (List.mem_append_left _ hother))
        (fun other hother => hvalues other (List.mem_append_left _ hother))
      have hreplaced := (Replaces.replaceAll_self hborder row.2 (replaceEach table t)).count_eq hcount
        (hvalues row hlast)
      have hexpanded := (h.replaces_expand t).count_eq hcount (hvalues row hlast)
      have hmore := h.occurrences_le_replaceEach t
      -- Each place takes one sign away, so the count tells at how many places the value was put.
      rw [replaceEach_concat]
      refine ⟨by omega, fun hequal front hfront => ?_⟩
      have hbefore := hsame (by omega)
      rcases List.prefix_concat_iff.mp hfront with rfl | hfront
      · have hwhole := hbefore table List.prefix_rfl
        rw [hwhole] at hreplaced hmore hequal
        rw [replaceEach_concat, hwhole, h.replaceAll_expand_iff t]
        exact Or.inr (by omega)
      · exact hbefore front hfront

/-- **Replacements of values without the sign.** If no value has the sign, replacements give the text
that one pass gives exactly if no step meets its placeholder at more places than the text has. -/
theorem AreSeparate.replaceEach_eq_iff_of_values (h : AreSeparate (table.map Prod.fst))
    (hbegins : ∀ row ∈ table, BeginsWith sign row.1) (hvalues : ∀ row ∈ table, sign ∉ row.2)
    (t : Text) :
    replaceEach table t = expand table t ↔
      ∀ front row, front ++ [row] <+: table →
        occurrences row.1 (expand front t) = occurrences row.1 t := by
  constructor
  · intro hsame front row hrow
    have hstages := (h.count_replaceEach hbegins hvalues t).2 (congrArg (List.count sign) hsame)
    have hmem : row ∈ table := hrow.subset (List.mem_append_right _ (List.mem_singleton_self row))
    apply ((replaceEach_eq_expand_iff h t).mp hstages front row hrow).resolve_left
    rintro hself
    exact hvalues row hmem (hself ▸ (hbegins row hmem).mem)
  · intro hcounts
    apply (replaceEach_eq_expand_iff h t).mpr _ table List.prefix_rfl
    exact fun front row hrow => Or.inr (hcounts front row hrow)

/-- If a text has the sign in its placeholders only, values without the sign make no new place for a
placeholder. -/
theorem AreSeparate.occurrences_expand_of_blank {back : Table}
    (h : AreSeparate ((front ++ row :: back).map Prod.fst))
    (hbegins : BeginsWith sign row.1) (hvalues : ∀ other ∈ front, sign ∉ other.2)
    (hblank : sign ∉ expand (Table.blank (front ++ row :: back)) t) :
    occurrences row.1 (expand front t) = occurrences row.1 t := by
  have hrows : Unambiguous ((Table.blank (front ++ row :: back)).map Prod.fst) := by
    rw [Table.map_fst_blank]
    exact h.unambiguous
  have hexpands := expands_expand hrows t
  generalize expand (Table.blank (front ++ row :: back)) t = r at hblank hexpands
  have hlast : AreSeparate ((front ++ [row]).map Prod.fst) :=
    h.sublist (((List.singleton_sublist.mpr List.mem_cons_self).append_left front).map _)
  have hfront : Unambiguous (front.map Prod.fst) :=
    (hlast.sublist ((List.sublist_append_left front [row]).map _)).unambiguous
  have hborder : IsUnbordered row.1 := hlast.unbordered _
    (List.mem_map_of_mem (List.mem_append_right _ (List.mem_singleton_self row)))
  induction hexpands with
  | nil => rfl
  | @placeholder blank t r hrow _ ih =>
      obtain ⟨first, hfirst, rfl⟩ := List.mem_map.mp hrow
      have hbehind := ih hblank
      rcases List.mem_append.mp hfirst with hput | hleft
      · -- The value that is put for it has no sign, so no place of the row begins in it.
        obtain ⟨⟨hapart, -⟩, -, hnot⟩ := hlast.apart_last hput
        rw [expand_placeholder hfront hput, hbegins.occurrences_append (hvalues first hput),
          occurrences_append hapart hnot, hbehind]
      rcases List.mem_cons.mp hleft with rfl | hback
      · rw [hlast.expand_append_last, hborder.occurrences_append, hborder.occurrences_append, hbehind]
      · -- The placeholder of a later row stays, and does not touch that of this one.
        have hother : AreSeparate ((front ++ [first]).map Prod.fst) :=
          h.sublist (((List.singleton_sublist.mpr hleft).append_left front).map _)
        have hpair : AreSeparate (([row] ++ [first]).map Prod.fst) :=
          h.sublist ((((List.singleton_sublist.mpr hback).cons_cons row).trans
            (List.sublist_append_right front _)).map _)
        obtain ⟨⟨-, hapart⟩, hnot, -⟩ := hpair.apart_last (List.mem_singleton_self row)
        rw [hother.expand_append_last, occurrences_append hapart hnot,
          occurrences_append hapart hnot, hbehind]
  | @plain c t r hplain _ ih =>
      obtain ⟨hc, hrest⟩ := not_or.mp (mt List.mem_cons.mpr hblank)
      have hkeep : ∀ other ∈ front, ¬other.1 <+: c :: t := fun other hother =>
        hplain (other.1, []) (List.mem_map.mpr ⟨other, List.mem_append_left _ hother, rfl⟩)
      have hsingle : sign ∉ [c] := mt List.mem_singleton.mp hc
      rw [expand_plain hkeep]
      exact (hbegins.occurrences_append hsingle _).trans
        ((ih hrest).trans (hbegins.occurrences_append hsingle t).symm)

/-- **Replacements in a text without other signs.** If a text has the sign in its placeholders only,
replacements of values without the sign are one pass, whatever the value of the last one is. -/
theorem AreSeparate.replaceEach_eq_expand_of_blank (h : AreSeparate (table.map Prod.fst))
    (hbegins : ∀ row ∈ table, BeginsWith sign row.1)
    (hvalues : ∀ row ∈ table.dropLast, sign ∉ row.2)
    (hblank : sign ∉ expand table.blank t) :
    replaceEach table t = expand table t := by
  apply (replaceEach_eq_expand_iff h t).mpr _ table List.prefix_rfl
  rintro front row ⟨back, rfl⟩
  right
  rw [List.append_assoc, List.singleton_append] at h hbegins hvalues hblank
  apply h.occurrences_expand_of_blank _ _ hblank
  · exact hbegins row (List.mem_append_right _ List.mem_cons_self)
  · intro other hother
    apply hvalues other
    rw [List.dropLast_append_cons]
    exact List.mem_append_left _ hother

end Sign

end Text

end SampleHarvest
