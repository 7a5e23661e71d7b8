import Mathlib.Tactic.SplitIfs
import SampleHarvest.Text.Utf8

/-!
# The order of texts

Texts are ordered by their first different character, and a text comes before its extensions. This
is a linear order, and it is the order of the bytes that encode the texts. Sorting keeps all texts,
and leaving out repeated ones keeps one of each.
-/

namespace SampleHarvest

namespace Text

variable {a b c : Text}

theorem le_cons_cons {x y : Char} :
    le (x :: a) (y :: b) ↔ x.toNat < y.toNat ∨ x = y ∧ le a b := by
  rw [le]
  split_ifs with hxy
  · subst y
    simp
  · have hne : x.toNat ≠ y.toNat := fun heq => hxy (Char.toNat_inj.mp heq)
    simp only [decide_eq_true_eq, hxy, false_and, or_false]
    omega

theorem le_total (a b : Text) : le a b ∨ le b a := by
  induction a generalizing b with
  | nil => exact Or.inl rfl
  | cons x a ih =>
      cases b with
      | nil => exact Or.inr rfl
      | cons y b =>
          rw [le_cons_cons, le_cons_cons]
          rcases Nat.lt_trichotomy x.toNat y.toNat with hlt | heq | hgt
          · exact Or.inl (Or.inl hlt)
          · have hxy := Char.toNat_inj.mp heq
            exact (ih b).imp (fun h => Or.inr ⟨hxy, h⟩) (fun h => Or.inr ⟨hxy.symm, h⟩)
          · exact Or.inr (Or.inl hgt)

theorem le_refl (a : Text) : le a a := (le_total a a).elim id id

theorem le_antisymm (hab : le a b) (hba : le b a) : a = b := by
  induction a generalizing b with
  | nil =>
      cases b with
      | nil => rfl
      | cons y b => cases hba
  | cons x a ih =>
      cases b with
      | nil => cases hab
      | cons y b =>
          rw [le_cons_cons] at hab hba
          rcases hab with hlt | ⟨rfl, hab⟩
          · rcases hba with hgt | ⟨rfl, _⟩ <;> omega
          · rcases hba with hgt | ⟨_, hba⟩
            · omega
            · rw [ih hab hba]

theorem le_trans (hab : le a b) (hbc : le b c) : le a c := by
  induction a generalizing b c with
  | nil => rfl
  | cons x a ih =>
      cases b with
      | nil => cases hab
      | cons y b =>
          cases c with
          | nil => cases hbc
          | cons z c =>
              rw [le_cons_cons] at hab hbc ⊢
              rcases hab with hxy | ⟨rfl, hab⟩
              · rcases hbc with hyz | ⟨rfl, _⟩
                · exact Or.inl (Nat.lt_trans hxy hyz)
                · exact Or.inl hxy
              · exact hbc.imp_right fun ⟨hxz, hbc⟩ => ⟨hxz, ih hab hbc⟩

theorem pairwise_sort (texts : List Text) : (sort texts).Pairwise fun a b => le a b :=
  @List.pairwise_mergeSort _ le (fun _ _ _ => le_trans)
    (fun a b => (Bool.or_eq_true _ _).mpr (le_total a b)) texts

theorem sort_perm (texts : List Text) : (sort texts).Perm texts := List.mergeSort_perm texts le

theorem mem_distinct {t : Text} {texts : List Text} : t ∈ distinct texts ↔ t ∈ texts := by
  suffices h : ∀ seen, t ∈ texts.foldl (fun seen t => if t ∈ seen then seen else seen ++ [t]) seen ↔
      t ∈ seen ∨ t ∈ texts by
    simpa [distinct] using h []
  induction texts with
  | nil => simp
  | cons u texts ih =>
      intro seen
      rw [List.foldl_cons, ih, List.mem_cons]
      split_ifs with hu
      · constructor
        · exact Or.imp_right Or.inr
        · rintro (h | rfl | h)
          · exact Or.inl h
          · exact Or.inl hu
          · exact Or.inr h
      · rw [List.mem_append, List.mem_singleton, or_assoc]

theorem nodup_distinct (texts : List Text) : (distinct texts).Nodup := by
  suffices h : ∀ seen : List Text, seen.Nodup →
      (texts.foldl (fun seen t => if t ∈ seen then seen else seen ++ [t]) seen).Nodup by
    exact h [] List.nodup_nil
  induction texts with
  | nil => exact fun seen hseen => hseen
  | cons u texts ih =>
      intro seen hseen
      rw [List.foldl_cons]
      split_ifs with hu
      · exact ih seen hseen
      · refine ih _ (List.nodup_append.mpr ⟨hseen, List.pairwise_singleton _ u, ?_⟩)
        intro t ht v hv heq
        rw [List.mem_singleton] at hv
        exact hu (hv ▸ heq ▸ ht)

end Text

/-- Whether the first different byte is smaller; bytes come before what extends them. -/
def Bytes.IsBefore (a b : Bytes) : Prop := List.Lex (fun x y => x.toNat < y.toNat) a b

namespace Utf8

theorem isBefore_cons {x y : Nat} (hx : x < 256) (hy : y < 256) {a b : Bytes}
    (h : x < y ∨ x = y ∧ Bytes.IsBefore a b) :
    Bytes.IsBefore (x.toUInt8 :: a) (y.toUInt8 :: b) := by
  rcases h with hlt | ⟨rfl, hrest⟩
  · refine List.Lex.rel ?_
    rw [Nat.toUInt8_eq, Nat.toUInt8_eq, UInt8.toNat_ofNat_of_lt' hx, UInt8.toNat_ofNat_of_lt' hy]
    exact hlt
  · exact List.Lex.cons hrest

theorem toNat_lt (c : Char) : c.toNat < 0x110000 := by
  have hvalid : c.toNat < 0xD800 ∨ 0xDFFF < c.toNat ∧ c.toNat < 0x110000 := c.valid
  omega

/-- The bytes of a character come before those of a greater one, whatever follows them. -/
theorem encodeChar_isBefore {x y : Char} (h : x.toNat < y.toNat) (a b : Bytes) :
    Bytes.IsBefore (encodeChar x ++ a) (encodeChar y ++ b) := by
  have hx := toNat_lt x
  have hy := toNat_lt y
  simp only [encodeChar]
  generalize x.toNat = n at h hx ⊢
  generalize y.toNat = m at h hy ⊢
  -- The first bytes are apart if the lengths differ; otherwise the digits are compared in turn.
  split_ifs <;> try omega
  all_goals
    refine isBefore_cons (by omega) (by omega) ?_
    try exact Or.inl (by omega)
  · rcases Nat.lt_or_ge (n / 0x40) (m / 0x40) with hfirst | hfirst
    · exact Or.inl (by omega)
    · exact Or.inr ⟨by omega, isBefore_cons (by omega) (by omega) (Or.inl (by omega))⟩
  · rcases Nat.lt_or_ge (n / 0x1000) (m / 0x1000) with hfirst | hfirst
    · exact Or.inl (by omega)
    · refine Or.inr ⟨by omega, isBefore_cons (by omega) (by omega) ?_⟩
      rcases Nat.lt_or_ge (n / 0x40) (m / 0x40) with hsecond | hsecond
      · exact Or.inl (by omega)
      · exact Or.inr ⟨by omega, isBefore_cons (by omega) (by omega) (Or.inl (by omega))⟩
  · rcases Nat.lt_or_ge (n / 0x40000) (m / 0x40000) with hfirst | hfirst
    · exact Or.inl (by omega)
    · refine Or.inr ⟨by omega, isBefore_cons (by omega) (by omega) ?_⟩
      rcases Nat.lt_or_ge (n / 0x1000) (m / 0x1000) with hsecond | hsecond
      · exact Or.inl (by omega)
      · refine Or.inr ⟨by omega, isBefore_cons (by omega) (by omega) ?_⟩
        rcases Nat.lt_or_ge (n / 0x40) (m / 0x40) with hthird | hthird
        · exact Or.inl (by omega)
        · exact Or.inr ⟨by omega, isBefore_cons (by omega) (by omega) (Or.inl (by omega))⟩

theorem encodeChar_ne_nil (c : Char) : encodeChar c ≠ [] := by
  simp only [encodeChar]
  split_ifs <;> exact List.cons_ne_nil _ _

/-- The order of texts is the order of their bytes. -/
theorem encode_isBefore {a b : Text} (hle : Text.le a b) (hne : a ≠ b) :
    Bytes.IsBefore (encode a) (encode b) := by
  induction a generalizing b with
  | nil =>
      cases b with
      | nil => exact absurd rfl hne
      | cons y b =>
          rw [encode, encode, List.flatMap_nil, List.flatMap_cons]
          obtain ⟨byte, bytes, hbytes⟩ := List.exists_cons_of_ne_nil (encodeChar_ne_nil y)
          rw [hbytes]
          exact List.Lex.nil
  | cons x a ih =>
      cases b with
      | nil => cases hle
      | cons y b =>
          rw [encode, encode, List.flatMap_cons, List.flatMap_cons]
          rcases Text.le_cons_cons.mp hle with hlt | ⟨rfl, htail⟩
          · exact encodeChar_isBefore hlt _ _
          · have hrest := ih htail fun heq => hne (by rw [heq])
            induction encodeChar x with
            | nil => exact hrest
            | cons byte bytes ih => exact List.Lex.cons ih

end Utf8

end SampleHarvest
