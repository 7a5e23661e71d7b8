import SampleHarvest.Ledger.Address
import SampleHarvest.Proofs.Markdown.Link
import SampleHarvest.Proofs.Text.Utf8

/-!
# Encoded tags

A tag is put into a link as one segment of its path. Every byte that could end the segment or mean
something in it is written as a percent sign with two digits, and so is the percent sign itself. A
percent sign in the segment thus always begins an escape, and taking the escapes back gives the bytes
of the tag and, as these are well-formed, the tag.
-/

namespace SampleHarvest

open Text

/-! ### Segments -/

/-- The ASCII letters and digits and the four marks that mean nothing in a link. -/
def IsPlain (c : Char) : Prop :=
  'A' ≤ c ∧ c ≤ 'Z' ∨ 'a' ≤ c ∧ c ≤ 'z' ∨ '0' ≤ c ∧ c ≤ '9' ∨ c ∈ ['-', '.', '_', '~']

instance (c : Char) : Decidable (IsPlain c) := inferInstanceAs (Decidable (_ ∨ _))

/-- The digits of a hexadecimal number written with capitals. -/
def IsCapitalHexDigit (c : Char) : Prop := '0' ≤ c ∧ c ≤ '9' ∨ 'A' ≤ c ∧ c ≤ 'F'

instance (c : Char) : Decidable (IsCapitalHexDigit c) := inferInstanceAs (Decidable (_ ∨ _))

/-- A text of plain characters and escapes. -/
inductive IsSegment : Text → Prop where
  | nil : IsSegment []
  | plain {c : Char} {t : Text} (hc : IsPlain c) (rest : IsSegment t) : IsSegment (c :: t)
  | escape {high low : Char} {t : Text} (hhigh : IsCapitalHexDigit high)
      (hlow : IsCapitalHexDigit low) (rest : IsSegment t) : IsSegment ('%' :: high :: low :: t)

theorem isPlain_of_isUnreserved {c : Char} (h : isUnreserved c) : IsPlain c := by
  delta isUnreserved Char.isAlphanum Char.isAlpha Char.isUpper Char.isLower Char.isDigit at h
  simp only [Bool.or_eq_true, Bool.and_eq_true, decide_eq_true_eq, beq_iff_eq] at h
  simp only [IsPlain, List.mem_cons, List.not_mem_nil, or_false]
  tauto

theorem isCapitalHexDigit_hexDigit {n : Nat} (h : n < 16) : IsCapitalHexDigit (hexDigit n) := by
  have hall : ∀ digit : Fin 16, IsCapitalHexDigit (hexDigit digit) := by decide
  exact hall ⟨n, h⟩

namespace IsSegment

theorem append {a b : Text} (ha : IsSegment a) (hb : IsSegment b) : IsSegment (a ++ b) := by
  induction ha with
  | nil => exact hb
  | plain hc _ ih => exact .plain hc ih
  | escape hhigh hlow _ ih => exact .escape hhigh hlow ih

theorem flatMap {α : Type} {f : α → Text} (hf : ∀ a, IsSegment (f a)) (l : List α) :
    IsSegment (l.flatMap f) := by
  induction l with
  | nil => exact .nil
  | cons a l ih =>
      rw [List.flatMap_cons]
      exact (hf a).append ih

end IsSegment

theorem isSegment_percentByte (b : UInt8) : IsSegment (percentByte b) := by
  have hbyte := b.toNat_lt
  exact .escape (isCapitalHexDigit_hexDigit (by omega)) (isCapitalHexDigit_hexDigit (by omega)) .nil

theorem isSegment_percentEncode (t : Text) : IsSegment (percentEncode t) := by
  refine .flatMap (fun c => ?_) t
  split_ifs with hc
  · exact .plain (isPlain_of_isUnreserved hc) .nil
  · exact .flatMap isSegment_percentByte _

/-! ### Decoding -/

/-- The bytes of a text with escapes. A percent sign without two digits behind it is itself. -/
def percentBytes : Text → Bytes
  | [] => []
  | '%' :: high :: low :: t =>
    match LedgerAddress.hexValue? high, LedgerAddress.hexValue? low with
    | some h, some l => (16 * h + l).toUInt8 :: percentBytes t
    | _, _ => Utf8.encodeChar '%' ++ percentBytes (high :: low :: t)
  | c :: t => Utf8.encodeChar c ++ percentBytes t

/-- The text that a segment stands for, if its bytes are well-formed. -/
def percentDecode? (t : Text) : Option Text := Utf8.decode? (percentBytes t)

theorem hexValue?_hexDigit {n : Nat} (h : n < 16) :
    LedgerAddress.hexValue? (hexDigit n) = some n := by
  have hall : ∀ digit : Fin 16, LedgerAddress.hexValue? (hexDigit digit) = some digit.val := by
    decide
  exact hall ⟨n, h⟩

theorem percentBytes_percentByte (b : UInt8) (t : Text) :
    percentBytes (percentByte b ++ t) = b :: percentBytes t := by
  have hbyte := b.toNat_lt
  have hhigh := hexValue?_hexDigit (n := b.toNat / 16) (by omega)
  have hlow := hexValue?_hexDigit (n := b.toNat % 16) (by omega)
  have hvalue : (16 * (b.toNat / 16) + b.toNat % 16).toUInt8 = b := by
    rw [Nat.div_add_mod]
    exact UInt8.ofNat_toNat
  rw [percentByte, List.cons_append, List.cons_append, List.cons_append, List.nil_append,
    percentBytes, hhigh, hlow]
  dsimp only
  rw [hvalue]

theorem percentBytes_flatMap_percentByte (bytes : Bytes) (t : Text) :
    percentBytes (bytes.flatMap percentByte ++ t) = bytes ++ percentBytes t := by
  induction bytes with
  | nil => rfl
  | cons b bytes ih =>
      rw [List.flatMap_cons, List.append_assoc, percentBytes_percentByte, ih, List.cons_append]

theorem percentBytes_cons {c : Char} (hc : c ≠ '%') (t : Text) :
    percentBytes (c :: t) = Utf8.encodeChar c ++ percentBytes t := by
  rw [percentBytes]
  rintro high low rest rfl
  exact absurd rfl hc

/-- Each character gives its bytes, whether it was escaped or not. -/
theorem percentBytes_percentEncode (t : Text) : percentBytes (percentEncode t) = Utf8.encode t := by
  induction t with
  | nil => rfl
  | cons c t ih =>
      rw [percentEncode, Utf8.encode, List.flatMap_cons, List.flatMap_cons]
      change percentBytes (_ ++ percentEncode t) = _ ++ Utf8.encode t
      split_ifs with hc
      · have hne : c ≠ '%' := by
          rintro rfl
          exact absurd hc (by decide)
        rw [List.singleton_append, percentBytes_cons hne, ih]
      · rw [percentBytes_flatMap_percentByte, ih]

theorem percentDecode?_percentEncode (t : Text) : percentDecode? (percentEncode t) = some t := by
  rw [percentDecode?, percentBytes_percentEncode, Utf8.decode?_encode]

theorem percentEncode_injective : Function.Injective percentEncode := by
  intro a b h
  have hdecoded := percentDecode?_percentEncode a
  rw [h, percentDecode?_percentEncode] at hdecoded
  exact (Option.some.inj hdecoded).symm

/-! ### The tag in a link -/

theorem replaceEach_eq_self {table : Table} {t : Text} (h : ∀ row ∈ table, ¬row.1 <:+: t) :
    replaceEach table t = t := by
  induction table with
  | nil => rfl
  | cons row table ih =>
      obtain ⟨hrow, hrest⟩ := List.forall_mem_cons.mp h
      rw [replaceEach, List.foldl_cons, replaceAll_of_absent hrow]
      exact ih hrest

theorem documentationLink_eq_replaceEach_tail (template : Text) (release : ReleaseInfo) :
    documentationLink template release = replaceEach (linkTable release).tail
      (replaceAll "\x7btag\x7d" (percentEncode release.tag) template) := rfl

/-- The other placeholders find nothing in the encoded tag, as it has no brace. -/
theorem documentationLink_tag (release : ReleaseInfo) :
    documentationLink "\x7btag\x7d" release = percentEncode release.tag := by
  have hreplaced : replaceAll "\x7btag\x7d" (percentEncode release.tag) "\x7btag\x7d" =
      percentEncode release.tag := by
    have hpattern : ("\x7btag\x7d" : Text) ≠ [] := by decide
    have hput := replaceAll_append_of_pattern hpattern (percentEncode release.tag) []
    rw [List.append_nil] at hput
    exact hput.trans (List.append_nil _)
  rw [documentationLink_eq_replaceEach_tail, hreplaced]
  refine replaceEach_eq_self fun row hrow hinside => ?_
  have hbrace := (beginsWith_of_mem_linkTable (List.mem_of_mem_tail hrow)).mem
  exact brace_not_mem_percentEncode release.tag (hinside.subset hbrace)

/-- **The encoded tag is a faithful path segment.** What is put for the tag in a link consists of
ASCII letters and digits, of four marks and of percent signs with two capital hexadecimal digits.
Decoding it gives the tag again, so different tags make different texts, and no character in it can
end the segment or begin a placeholder. -/
theorem documentationLink_tag_faithful (release : ReleaseInfo) :
    let encoded := documentationLink "\x7btag\x7d" release
    (∀ template, documentationLink template release =
      replaceEach (linkTable release).tail (replaceAll "\x7btag\x7d" encoded template)) ∧
    IsSegment encoded ∧
    percentDecode? encoded = some release.tag ∧
    (∀ c ∈ ['/', '?', '#', '\x7b', '\x7d'], c ∉ encoded) ∧
    ∀ other : ReleaseInfo,
      documentationLink "\x7btag\x7d" other = encoded ↔ other.tag = release.tag := by
  intro encoded
  have hencoded : encoded = percentEncode release.tag := documentationLink_tag release
  rw [hencoded]
  refine ⟨fun template => documentationLink_eq_replaceEach_tail template release,
    isSegment_percentEncode release.tag, percentDecode?_percentEncode release.tag, ?_, ?_⟩
  · intro c hc hmem
    -- With all of the library, decide would go through every character here.
    have hspecial : ∀ c ∈ ['/', '?', '#', '\x7b', '\x7d'], ¬(c = '%' ∨ isUnreserved c) := by
      simp [isUnreserved]
    exact hspecial c hc (mem_percentEncode hmem)
  · intro other
    rw [documentationLink_tag]
    exact percentEncode_injective.eq_iff

/-- A tag with a percent sign of its own and with characters of two and three bytes. -/
example : documentationLink "\x7btag\x7d" ⟨"v1%2F/\u00e9\u20ac", "p", "1", "p"⟩ =
    "v1%252F%2F%C3%A9%E2%82%AC" := by
  decide +kernel

end SampleHarvest
