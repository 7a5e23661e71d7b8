import Mathlib.Tactic.SplitIfs
import SampleHarvest.Text.Utf8

/-!
# Encoded texts are decoded again

The bytes of a text are well-formed, and decoding them gives the text. The first byte of a character
says how many follow, and the bounds of the second byte leave out long forms, surrogates and numbers
that belong to no character, none of which the bytes of a character have.
-/

namespace SampleHarvest

namespace Utf8

theorem toNat_toUInt8 {n : Nat} (h : n < 0x100) : n.toUInt8.toNat = n := Nat.mod_eq_of_lt h

theorem ofLead?_toUInt8 {n : Nat} (h : n < 0x100) :
    State.ofLead? n.toUInt8 =
      if n < 0xC2 then none
      else if n < 0xE0 then some (.inside (n - 0xC0) 1 0x80 0xBF)
      else if n = 0xE0 then some (.inside 0 2 0xA0 0xBF)
      else if n = 0xED then some (.inside 0xD 2 0x80 0x9F)
      else if n < 0xF0 then some (.inside (n - 0xE0) 2 0x80 0xBF)
      else if n = 0xF0 then some (.inside 0 3 0x90 0xBF)
      else if n < 0xF4 then some (.inside (n - 0xF0) 3 0x80 0xBF)
      else if n = 0xF4 then some (.inside 4 3 0x80 0x8F)
      else none := by
  simp [State.ofLead?, UInt8.lt_iff_toNat_lt, ← UInt8.toNat_inj, toNat_toUInt8 h]

variable {bytes : Bytes}

theorem decodeFrom?_ascii {n : Nat} (h : n < 0x80) :
    decodeFrom? .start (n.toUInt8 :: bytes) =
      (decodeFrom? .start bytes).map (Char.ofNat n :: ·) := by
  simp [decodeFrom?, UInt8.lt_iff_toNat_lt, toNat_toUInt8 (Nat.lt_trans h (by decide)), h]

theorem decodeFrom?_lead {n : Nat} (hlow : 0x80 ≤ n) (hhigh : n < 0x100) :
    decodeFrom? .start (n.toUInt8 :: bytes) =
      (State.ofLead? n.toUInt8).bind (decodeFrom? · bytes) := by
  simp [decodeFrom?, UInt8.lt_iff_toNat_lt, toNat_toUInt8 hhigh, Nat.not_lt.mpr hlow]

/-- A byte that goes on with a character, within the bounds. -/
theorem decodeFrom?_inside {value owed m : Nat} {low high : UInt8} (hm : m < 0x40)
    (hlow : low.toNat ≤ 0x80 + m) (hhigh : 0x80 + m ≤ high.toNat) :
    decodeFrom? (.inside value owed low high) ((0x80 + m).toUInt8 :: bytes) =
      if owed ≤ 1 then (decodeFrom? .start bytes).map (Char.ofNat (value * 0x40 + m) :: ·)
      else decodeFrom? (.inside (value * 0x40 + m) (owed - 1) 0x80 0xBF) bytes := by
  have hbyte : (0x80 + m).toUInt8.toNat = 0x80 + m := toNat_toUInt8 (by omega)
  rw [decodeFrom?, if_pos]
  · rw [hbyte, Nat.add_sub_cancel_left]
  · simp only [Bool.and_eq_true, decide_eq_true_eq, UInt8.le_iff_toNat_le, hbyte]
    exact ⟨hlow, hhigh⟩

theorem decodeFrom?_one {value k : Nat} (hk : k < 0x40) :
    decodeFrom? (.inside value 1 0x80 0xBF) ((0x80 + k).toUInt8 :: bytes) =
      (decodeFrom? .start bytes).map (Char.ofNat (value * 0x40 + k) :: ·) := by
  have hhigh : 0x80 + k ≤ (0xBF : UInt8).toNat := Nat.le_of_lt_succ (Nat.add_lt_add_left hk 0x80)
  rw [decodeFrom?_inside hk (Nat.le_add_right ..) hhigh, if_pos (Nat.le_refl 1)]

theorem decodeFrom?_two {value m k : Nat} {low high : UInt8} (hm : m < 0x40) (hk : k < 0x40)
    (hlow : low.toNat ≤ 0x80 + m) (hhigh : 0x80 + m ≤ high.toNat) :
    decodeFrom? (.inside value 2 low high) ((0x80 + m).toUInt8 :: (0x80 + k).toUInt8 :: bytes) =
      (decodeFrom? .start bytes).map (Char.ofNat ((value * 0x40 + m) * 0x40 + k) :: ·) := by
  rw [decodeFrom?_inside hm hlow hhigh, if_neg (by decide), decodeFrom?_one hk]

theorem decodeFrom?_three {value l m k : Nat} {low high : UInt8} (hl : l < 0x40) (hm : m < 0x40)
    (hk : k < 0x40) (hlow : low.toNat ≤ 0x80 + l) (hhigh : 0x80 + l ≤ high.toNat) :
    decodeFrom? (.inside value 3 low high)
        ((0x80 + l).toUInt8 :: (0x80 + m).toUInt8 :: (0x80 + k).toUInt8 :: bytes) =
      (decodeFrom? .start bytes).map
        (Char.ofNat (((value * 0x40 + l) * 0x40 + m) * 0x40 + k) :: ·) := by
  have hhighest : 0x80 + m ≤ (0xBF : UInt8).toNat :=
    Nat.le_of_lt_succ (Nat.add_lt_add_left hm 0x80)
  rw [decodeFrom?_inside hl hlow hhigh, if_neg (by decide),
    decodeFrom?_two hm hk (Nat.le_add_right ..) hhighest]

/-- A first byte of three and the bounds of the second byte. -/
theorem ofLead?_three {n : Nat} (hlow : 0x800 ≤ n) (hhigh : n < 0x10000)
    (hvalid : n < 0xD800 ∨ 0xDFFF < n) :
    ∃ low high : UInt8, State.ofLead? (0xE0 + n / 0x1000).toUInt8 =
        some (.inside (n / 0x1000) 2 low high) ∧
      low.toNat ≤ 0x80 + n / 0x40 % 0x40 ∧ 0x80 + n / 0x40 % 0x40 ≤ high.toNat := by
  have hdigit := Nat.mod_lt (n / 0x40) (y := 0x40) (by decide)
  rw [ofLead?_toUInt8 (by omega), if_neg (by omega), if_neg (by omega)]
  split_ifs with hfirst hlast
  · refine ⟨0xA0, 0xBF, by rw [show n / 0x1000 = 0 by omega], ?_, ?_⟩
    · change 0xA0 ≤ _
      omega
    · change _ ≤ 0xBF
      omega
  · refine ⟨0x80, 0x9F, by rw [show n / 0x1000 = 0xD by omega], ?_, ?_⟩
    · exact Nat.le_add_right ..
    · change _ ≤ 0x9F
      omega
  · refine ⟨0x80, 0xBF, by rw [Nat.add_sub_cancel_left], ?_, ?_⟩
    · exact Nat.le_add_right ..
    · change _ ≤ 0xBF
      omega
  all_goals omega

/-- A first byte of four and the bounds of the second byte. -/
theorem ofLead?_four {n : Nat} (hlow : 0x10000 ≤ n) (hhigh : n < 0x110000) :
    ∃ low high : UInt8, State.ofLead? (0xF0 + n / 0x40000).toUInt8 =
        some (.inside (n / 0x40000) 3 low high) ∧
      low.toNat ≤ 0x80 + n / 0x1000 % 0x40 ∧ 0x80 + n / 0x1000 % 0x40 ≤ high.toNat := by
  have hdigit := Nat.mod_lt (n / 0x1000) (y := 0x40) (by decide)
  rw [ofLead?_toUInt8 (by omega), if_neg (by omega), if_neg (by omega), if_neg (by omega),
    if_neg (by omega), if_neg (by omega)]
  split_ifs with hfirst hmiddle hlast
  · refine ⟨0x90, 0xBF, by rw [show n / 0x40000 = 0 by omega], ?_, ?_⟩
    · change 0x90 ≤ _
      omega
    · change _ ≤ 0xBF
      omega
  · refine ⟨0x80, 0xBF, by rw [Nat.add_sub_cancel_left], ?_, ?_⟩
    · exact Nat.le_add_right ..
    · change _ ≤ 0xBF
      omega
  · refine ⟨0x80, 0x8F, by rw [show n / 0x40000 = 4 by omega], ?_, ?_⟩
    · exact Nat.le_add_right ..
    · change _ ≤ 0x8F
      omega
  · omega

theorem decodeFrom?_encodeChar (c : Char) (bytes : Bytes) :
    decodeFrom? .start (encodeChar c ++ bytes) = (decodeFrom? .start bytes).map (c :: ·) := by
  have hvalid : c.toNat < 0xD800 ∨ 0xDFFF < c.toNat ∧ c.toNat < 0x110000 := c.valid
  have hchar : Char.ofNat c.toNat = c := Char.ofNat_toNat c
  rw [encodeChar]
  generalize c.toNat = n at hvalid hchar ⊢
  split_ifs with hone htwo hthree
  · rw [List.singleton_append, decodeFrom?_ascii hone, hchar]
  · rw [List.cons_append, List.singleton_append, decodeFrom?_lead (by omega) (by omega),
      ofLead?_toUInt8 (by omega), if_neg (by omega), if_pos (by omega), Option.bind_some,
      decodeFrom?_one (by omega)]
    rw [show (0xC0 + n / 0x40 - 0xC0) * 0x40 + n % 0x40 = n by omega, hchar]
  · obtain ⟨low, high, hlead, hlow, hhigh⟩ :=
      ofLead?_three (n := n) (by omega) hthree (by omega)
    rw [List.cons_append, List.cons_append, List.singleton_append,
      decodeFrom?_lead (by omega) (by omega), hlead, Option.bind_some,
      decodeFrom?_two (by omega) (by omega) hlow hhigh]
    rw [show (n / 0x1000 * 0x40 + n / 0x40 % 0x40) * 0x40 + n % 0x40 = n by omega, hchar]
  · obtain ⟨low, high, hlead, hlow, hhigh⟩ := ofLead?_four (n := n) (by omega) (by omega)
    rw [List.cons_append, List.cons_append, List.cons_append, List.singleton_append,
      decodeFrom?_lead (by omega) (by omega), hlead, Option.bind_some,
      decodeFrom?_three (by omega) (by omega) (by omega) hlow hhigh]
    rw [show ((n / 0x40000 * 0x40 + n / 0x1000 % 0x40) * 0x40 + n / 0x40 % 0x40) * 0x40 +
      n % 0x40 = n by omega, hchar]

theorem decode?_encode (t : Text) : decode? (encode t) = some t := by
  induction t with
  | nil => rfl
  | cons c t ih =>
      rw [decode?, encode, List.flatMap_cons, decodeFrom?_encodeChar]
      exact congrArg (Option.map (c :: ·)) ih

/-- Every character takes a byte. -/
theorem length_le_size (t : Text) : t.length ≤ size t := by
  induction t with
  | nil => exact Nat.zero_le _
  | cons c t ih =>
      have hchar : 0 < (encodeChar c).length := by
        rw [encodeChar]
        split_ifs <;> simp
      rw [size, encode] at ih ⊢
      rw [List.flatMap_cons, List.length_append, List.length_cons]
      omega

end Utf8

end SampleHarvest
