import Mathlib.Data.List.DropRight
import SampleHarvest.Text.Basic

/-!
# Trimmed texts and leading parts

What follows a leading part is the rest of the text. A text that has a character other than a blank
after its leading blanks begins with this character when it is trimmed. Blanks around a text do not
matter when it is trimmed, and a text is trimmed if it neither begins nor ends with a blank.
-/

namespace SampleHarvest

namespace Text

theorem after?_eq_some_iff {t part rest : Text} : after? t part = some rest ↔ t = part ++ rest := by
  induction part generalizing t with
  | nil => simp [after?]
  | cons p part ih =>
      cases t with
      | nil => simp [after?]
      | cons c t =>
          rw [after?]
          split
          · next hc => simp [hc, ih]
          · next hc => simp [hc]

theorem trimEnd_cons {c : Char} (hc : isBlank c = false) (t : Text) :
    trimEnd (c :: t) = c :: trimEnd t := by
  simp only [trimEnd, List.reverse_cons, List.dropWhile_append]
  split
  · next hblank =>
      have hnil : t.reverse.dropWhile isBlank = [] := by simpa using hblank
      simp [hnil, hc]
  · simp

def IsBlanks (t : Text) : Prop := ∀ c ∈ t, isBlank c

instance (t : Text) : Decidable (IsBlanks t) := decidable_of_iff (t.all isBlank) List.all_eq_true

theorem trim_blanks_append {blanks : Text} (hblanks : IsBlanks blanks) (t : Text) :
    trim (blanks ++ t) = trim t := by
  simp only [trim, trimStart, List.dropWhile_append_of_pos hblanks]

theorem trim_append_blanks {blanks : Text} (hblanks : IsBlanks blanks) (t : Text) :
    trim (t ++ blanks) = trim t := by
  have hreverse : ∀ c ∈ blanks.reverse, isBlank c := fun c hc => hblanks c (List.mem_reverse.mp hc)
  have hnone : blanks.dropWhile isBlank = [] := List.dropWhile_eq_nil_iff.mpr hblanks
  rw [trim, trim, trimStart, trimStart, List.dropWhile_append]
  split
  · next hall => rw [hnone, List.isEmpty_iff.mp hall]
  · rw [trimEnd, trimEnd, List.reverse_append, List.dropWhile_append_of_pos hreverse]

theorem head?_trim (t : Text) : ∀ c ∈ (trim t).head?, isBlank c = false := by
  intro c hc
  rw [trim] at hc
  cases hstart : trimStart t with
  | nil =>
      rw [hstart] at hc
      cases hc
  | cons d rest =>
      have hd : isBlank d = false := by
        have hfirst := List.head?_dropWhile_not isBlank t
        rw [← trimStart, hstart] at hfirst
        simpa using hfirst
      rw [hstart, trimEnd_cons hd, List.head?_cons] at hc
      rw [← Option.some.inj hc, hd]

theorem getLast?_trim (t : Text) : ∀ c ∈ (trim t).getLast?, isBlank c = false := by
  intro c hc
  obtain ⟨hne, rfl⟩ := List.mem_getLast?_eq_getLast hc
  exact Bool.eq_false_iff.mpr (List.rdropWhile_last_not isBlank (trimStart t) hne)

theorem trim_eq_self {t : Text} (hhead : ∀ c ∈ t.head?, isBlank c = false)
    (hlast : ∀ c ∈ t.getLast?, isBlank c = false) : trim t = t := by
  have hstart : trimStart t = t := by
    cases t with
    | nil => rfl
    | cons c t => exact List.dropWhile_cons_of_neg (Bool.eq_false_iff.mp (hhead c rfl))
  rw [trim, hstart]
  refine List.rdropWhile_eq_self_iff.mpr fun hne => Bool.eq_false_iff.mp (hlast _ ?_)
  exact List.getLast?_eq_some_getLast hne

/-- A text that goes from one visible character to another one. -/
structure IsSolid (t : Text) : Prop where
  ne_nil : t ≠ []
  trim_eq : trim t = t

instance (t : Text) : Decidable (IsSolid t) :=
  decidable_of_iff (t ≠ [] ∧ trim t = t) ⟨fun h => ⟨h.1, h.2⟩, fun h => ⟨h.1, h.2⟩⟩

namespace IsSolid

variable {a b : Text}

/-- Whatever stands between two solid texts, the whole is solid. -/
theorem append_append (ha : IsSolid a) (middle : Text) (hb : IsSolid b) :
    IsSolid (a ++ middle ++ b) := by
  refine ⟨List.append_ne_nil_of_right_ne_nil _ hb.ne_nil, trim_eq_self ?_ ?_⟩
  · rw [List.append_assoc, List.head?_append_of_ne_nil a ha.ne_nil, ← ha.trim_eq]
    exact head?_trim a
  · rw [List.getLast?_append_of_ne_nil _ hb.ne_nil, ← hb.trim_eq]
    exact getLast?_trim b

theorem append (ha : IsSolid a) (hb : IsSolid b) : IsSolid (a ++ b) := by
  have hwhole := ha.append_append [] hb
  rwa [List.append_nil] at hwhole

theorem flatten {parts : List Text} (hne : parts ≠ []) (hparts : ∀ part ∈ parts, IsSolid part) :
    IsSolid parts.flatten := by
  induction parts with
  | nil => exact absurd rfl hne
  | cons first rest ih =>
      obtain ⟨hfirst, hrest⟩ := List.forall_mem_cons.mp hparts
      rw [List.flatten_cons]
      by_cases hnil : rest = []
      · rw [hnil, List.flatten_nil, List.append_nil]
        exact hfirst
      · exact hfirst.append (ih hnil hrest)

theorem trim_between (ha : IsSolid a) {front back : Text} (hfront : IsBlanks front)
    (hback : IsBlanks back) : trim (front ++ a ++ back) = a := by
  rw [trim_append_blanks hback, trim_blanks_append hfront, ha.trim_eq]

end IsSolid

theorem head?_of_startsWith {t part : Text} {c : Char} (h : startsWith t (c :: part)) :
    t.head? = some c := by
  obtain ⟨rest, rfl⟩ := List.isPrefixOf_iff_prefix.mp h
  rfl

theorem head?_trim_of_startsWith (blanks : Text) {t part : Text} {c : Char}
    (h : startsWith t (blanks ++ c :: part)) (hblanks : IsBlanks blanks)
    (hc : isBlank c = false) : (trim t).head? = some c := by
  obtain ⟨rest, rfl⟩ := List.isPrefixOf_iff_prefix.mp h
  have hstart : trimStart (c :: (part ++ rest)) = c :: (part ++ rest) :=
    List.dropWhile_cons_of_neg (by simp [hc])
  rw [List.append_assoc, trim_blanks_append hblanks, List.cons_append, trim, hstart,
    trimEnd_cons hc]
  rfl

end Text

end SampleHarvest
