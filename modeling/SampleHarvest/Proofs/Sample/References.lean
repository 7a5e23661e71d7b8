import SampleHarvest.Proofs.Path.Location
import SampleHarvest.Proofs.Sample.Examples
import SampleHarvest.Proofs.Sample.Naming
import SampleHarvest.Proofs.Text.Lines

/-!
# References are clean

A reference is read from one line or put together from several, and each line gives a part of itself
without the blanks around it. The line feed of a line is a blank at its end, so it is in no part. A
part may be empty, as a comment line may have nothing but its leader; the parts around it then stand
next to each other, and the whole still begins and ends with a visible character.

The names of a target are parts of the reference with the suffix of the dialect, so none of them has
a line feed either.
-/

namespace SampleHarvest

open Text

namespace Text

variable {t a b : Text}

theorem trim_subset (t : Text) : trim t ⊆ t :=
  List.Subset.trans (List.rdropWhile_prefix isBlank (trimStart t)).subset
    (List.dropWhile_subset isBlank)

/-- A text on one line without blanks around it. It may be empty. -/
structure IsNeat (t : Text) : Prop where
  trim_eq : trim t = t
  lineFeed_not_mem : '\n' ∉ t

theorem isNeat_nil : IsNeat [] := ⟨rfl, List.not_mem_nil⟩

theorem isNeat_trim (h : '\n' ∉ t) : IsNeat (trim t) :=
  ⟨trim_eq_self (head?_trim t) (getLast?_trim t), fun hmem => h (trim_subset t hmem)⟩

/-- Where one of two parts is empty, the other one has both ends. -/
theorem IsNeat.append (ha : IsNeat a) (hb : IsNeat b) : IsNeat (a ++ b) := by
  by_cases hnilA : a = []
  · rwa [hnilA, List.nil_append]
  by_cases hnilB : b = []
  · rwa [hnilB, List.append_nil]
  have hsolid : IsSolid (a ++ b) := IsSolid.append ⟨hnilA, ha.trim_eq⟩ ⟨hnilB, hb.trim_eq⟩
  refine ⟨hsolid.trim_eq, fun hmem => ?_⟩
  exact (List.mem_append.mp hmem).elim ha.lineFeed_not_mem hb.lineFeed_not_mem

theorem subset_of_after? {part rest : Text} (h : after? t part = some rest) : rest ⊆ t := by
  rw [after?_eq_some_iff.mp h]
  exact List.subset_append_right part rest

theorem dropLead_subset (t part : Text) : t.dropLead part ⊆ t := by
  rw [dropLead]
  cases h : after? t part with
  | none => exact List.Subset.refl t
  | some rest => exact subset_of_after? h

theorem mem_joinWith {separator : Text} {parts : List Text} {c : Char}
    (h : c ∈ joinWith separator parts) : c ∈ separator ∨ ∃ part ∈ parts, c ∈ part := by
  induction parts with
  | nil => cases h
  | cons part parts ih =>
      cases parts with
      | nil => exact Or.inr ⟨part, List.mem_cons_self, h⟩
      | cons next parts =>
          rw [joinWith, List.mem_append, List.mem_append] at h
          · obtain (hpart | hseparator) | hrest := h
            · exact Or.inr ⟨part, List.mem_cons_self, hpart⟩
            · exact Or.inl hseparator
            · refine (ih hrest).imp_right ?_
              rintro ⟨other, hother, hc⟩
              exact ⟨other, List.mem_cons_of_mem _ hother, hc⟩
          · exact List.cons_ne_nil next parts

end Text

/-! ### The parts that lines give -/

namespace Line

variable {line : Line}

theorem lineFeed_not_mem_trim {text : Text} (h : line ∈ splitLines text) :
    '\n' ∉ Text.trim line := by
  obtain ⟨front, hfront, rfl | rfl⟩ := exists_of_mem_splitLines h
  · exact fun hmem => hfront (trim_subset _ hmem)
  · rw [trim_append_blanks (by decide)]
    exact fun hmem => hfront (trim_subset _ hmem)

theorem isNeat_commentText (h : '\n' ∉ Text.trim line) : IsNeat line.commentText := by
  rw [commentText]
  split
  · next rest hrest => exact isNeat_trim fun hmem => h (subset_of_after? hrest hmem)
  · exact isNeat_trim fun hmem => h (dropLead_subset _ _ hmem)

end Line

namespace DialectRules

variable {rules : DialectRules} {line : Line} {below lines : List Line} {reference : Text}

theorem isNeat_markerValue? (h : '\n' ∉ Text.trim line)
    (hvalue : rules.markerValue? line = some reference) : IsNeat reference := by
  obtain ⟨rest, hrest, rfl⟩ := Option.map_eq_some_iff.mp hvalue
  exact isNeat_trim fun hmem => h (subset_of_after? hrest hmem)

/-- Each line that is read adds a neat part in front of what the lines below it give. -/
theorem isNeat_wrappedReference (hbelow : ∀ line ∈ below, '\n' ∉ Text.trim line) :
    IsNeat (rules.wrappedReference below) := by
  induction below with
  | nil => exact isNeat_nil
  | cons line below ih =>
      obtain ⟨hline, hrest⟩ := List.forall_mem_cons.mp hbelow
      rw [wrappedReference]
      split_ifs
      · exact isNeat_nil
      · exact (Line.isNeat_commentText hline).append (ih hrest)

theorem reference?_neat (hline : '\n' ∉ Text.trim line)
    (hbelow : ∀ line ∈ below, '\n' ∉ Text.trim line)
    (h : rules.reference? line below = some reference) : reference ≠ [] ∧ IsNeat reference := by
  rw [reference?] at h
  split at h
  · cases h
  · split at h
    · cases h
    · next hne =>
        obtain rfl := Option.some.inj h
        exact ⟨hne, isNeat_wrappedReference hbelow⟩
  · next value hne hvalue =>
      obtain rfl := Option.some.inj h
      exact ⟨hne, isNeat_markerValue? hline hvalue⟩

theorem referenceAt?_neat {text : Text} {index : Nat}
    (h : rules.referenceAt? (splitLines text) index = some reference) :
    reference ≠ [] ∧ IsNeat reference := by
  have hlines : ∀ line ∈ (splitLines text).drop index, '\n' ∉ Text.trim line :=
    fun line hline => Line.lineFeed_not_mem_trim (List.mem_of_mem_drop hline)
  rw [referenceAt?] at h
  cases hdrop : (splitLines text).drop index with
  | nil =>
      rw [hdrop] at h
      cases h
  | cons line below =>
      rw [hdrop] at h hlines
      obtain ⟨hline, hbelow⟩ := List.forall_mem_cons.mp hlines
      exact reference?_neat hline hbelow h

end DialectRules

/-! ### The names of a target -/

namespace Target

variable {reference suffix : Text}

theorem normalize_of_trim_eq (h : Text.trim reference = reference) :
    normalize reference = reference.map straighten := by
  rw [normalize, h]
  rfl

theorem lineFeed_not_mem_normalize (h : '\n' ∉ reference) : '\n' ∉ normalize reference := by
  intro hmem
  obtain ⟨c, hc, hfeed⟩ := List.mem_map.mp hmem
  split_ifs at hfeed
  · exact absurd hfeed (by decide)
  · exact h (hfeed ▸ trim_subset reference hc)

/-- A target has no character that is neither in its reference nor in the suffix, slashes apart. -/
theorem lineFeed_not_mem_ofReference (hreference : '\n' ∉ reference) (hsuffix : '\n' ∉ suffix) :
    '\n' ∉ (ofReference reference suffix).folder ∧ '\n' ∉ (ofReference reference suffix).stem := by
  have hnormal := lineFeed_not_mem_normalize hreference
  have hpart : ∀ part ∈ (normalize reference).splitOn '/', '\n' ∉ part :=
    fun part hmem hfeed => hnormal (subset_of_mem_splitOn hmem hfeed)
  rw [ofReference_eq]
  constructor
  · intro hmem
    obtain hslash | ⟨part, hmem, hfeed⟩ := mem_joinWith hmem
    · exact absurd hslash (by decide)
    · obtain ⟨name, hname, hsplit⟩ := mem_suffixFolder hmem
      have hplain : '\n' ∉ name :=
        hpart name (List.dropLast_subset _ (List.mem_filter.mp hname).1)
      rcases hsplit with rfl | rfl
      · exact hplain hfeed
      · exact (List.mem_append.mp hfeed).elim hplain hsuffix
  · intro hmem
    exact hpart _ (List.getLast_mem _) ((List.takeWhile_sublist _).subset hmem)

end Target

/-! ### Examples -/

theorem Dialect.lineFeed_not_mem_folderSuffix (dialect : Dialect) :
    '\n' ∉ dialect.rules.folderSuffix := by
  cases dialect <;> decide

theorem exists_referenceAt?_of_mem_extractExamples {dialect : Dialect} {text symbol : Text}
    {shown : Example} (h : shown ∈ extractExamples dialect.rules text symbol) :
    ∃ index, dialect.rules.referenceAt? (splitLines text) index = some shown.reference := by
  rw [extractExamples_eq] at h
  obtain ⟨⟨u, number⟩, hu, hshown⟩ := List.mem_filterMap.mp h
  obtain ⟨reference, hreference, rfl⟩ := Option.map_eq_some_iff.mp hshown
  obtain ⟨hscan, hvalid⟩ := Sample.mem_scan_of_mem_units (List.fst_mem_of_mem_zipIdx hu)
  obtain ⟨index, hnamed⟩ := DialectRules.exists_isNamedAt dialect.tellsLinesApart hscan hvalid
  exact ⟨index, (hnamed.referenceAt?_eq dialect.tellsLinesApart).trans hreference⟩

/-- **References are clean.** Wherever a reference is read in a text, be it from one line or from
several, it is not empty, has no line feed, and neither begins nor ends with a blank. So nothing is
trimmed when it is made into a target, and all that changes is the direction of its slashes. The
examples of the text have such references, and no line feed is in the folders or stems of their
targets. -/
theorem referenceAt?_clean (dialect : Dialect) (text : Text) :
    (∀ index, ∀ reference ∈ dialect.rules.referenceAt? (splitLines text) index,
      reference ≠ [] ∧ '\n' ∉ reference ∧
        (∀ c ∈ reference.head?, isBlank c = false) ∧
        (∀ c ∈ reference.getLast?, isBlank c = false) ∧
        Text.trim reference = reference ∧
        Target.normalize reference = reference.map fun c => if c = '\\' then '/' else c) ∧
    ∀ symbol, ∀ shown ∈ extractExamples dialect.rules text symbol,
      (∃ index, dialect.rules.referenceAt? (splitLines text) index = some shown.reference) ∧
        '\n' ∉ shown.target.folder ∧ '\n' ∉ shown.target.stem := by
  constructor
  · intro index reference hreference
    obtain ⟨hne, hneat⟩ := DialectRules.referenceAt?_neat hreference
    have hends := hneat.trim_eq
    refine ⟨hne, hneat.lineFeed_not_mem, ?_, ?_, hends, Target.normalize_of_trim_eq hends⟩
    · rw [← hends]
      exact head?_trim reference
    · rw [← hends]
      exact getLast?_trim reference
  · intro symbol shown hshown
    obtain ⟨index, hreference⟩ := exists_referenceAt?_of_mem_extractExamples hshown
    have hneat := (DialectRules.referenceAt?_neat hreference).2
    rw [extractExamples_eq] at hshown
    rw [Sample.target_of_mem_examples hshown]
    exact ⟨⟨index, hreference⟩, Target.lineFeed_not_mem_ofReference hneat.lineFeed_not_mem
      dialect.lineFeed_not_mem_folderSuffix⟩

/-- A reference wrapped onto three lines, of which the second one has nothing but its leader. -/
theorem referenceAt?_clean_wrapped :
    let text : Text := "/*\n * x-ms-original-file: \r\n * specs\\examples/ \n *\n * A.json\t\r\n */\n" ++
      "    public static void a() \x7b\n    \x7d\n"
    Dialect.java.rules.referenceAt? (splitLines text) 1 = some "specs\\examples/A.json" ∧
      Target.normalize "specs\\examples/A.json" = ("specs/examples/A.json" : Text) ∧
      ∃ shown ∈ extractExamples Dialect.java.rules text "Sample",
        shown.target = ⟨"specs/examples-java", "A"⟩ ∧ '\n' ∉ shown.target.folder := by
  intro text
  have hread : Dialect.java.rules.referenceAt? (splitLines text) 1 =
      some ("specs\\examples/A.json" : Text) := by decide +kernel
  obtain ⟨hreferences, hexamples⟩ := referenceAt?_clean Dialect.java text
  obtain ⟨-, -, -, -, -, hnormal⟩ := hreferences 1 _ hread
  obtain ⟨shown, hshown, htarget⟩ : ∃ shown ∈ extractExamples Dialect.java.rules text "Sample",
      shown.target = ⟨"specs/examples-java", "A"⟩ := by decide +kernel
  exact ⟨hread, hnormal.trans (by decide), shown, hshown, htarget,
    (hexamples "Sample" shown hshown).2.1⟩

end SampleHarvest
