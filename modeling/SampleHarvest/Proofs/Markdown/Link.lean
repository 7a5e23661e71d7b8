import SampleHarvest.Markdown
import SampleHarvest.Proofs.Text.Occurrences

/-!
# Documentation links

The placeholders of a link template are replaced one kind after the other, so a field of the release
that was put in is looked through for the placeholders that come later. A link is that of a single
pass only if no step meets its placeholder at more places than the template has.

The encoded tag has no brace. Fields without braces can still complete a placeholder whose brace is
in the template; if the template has braces in its placeholders only, they cannot.
-/

namespace SampleHarvest

open Text

/-! ### The encoded tag -/

theorem isUnreserved_hexDigit {n : Nat} (h : n < 16) : isUnreserved (hexDigit n) := by
  have hall : ∀ digit : Fin 16, isUnreserved (hexDigit digit) := by decide
  exact hall ⟨n, h⟩

theorem mem_percentByte {b : UInt8} {c : Char} (h : c ∈ percentByte b) :
    c = '%' ∨ isUnreserved c := by
  have hbyte := b.toNat_lt
  rw [percentByte] at h
  rcases List.mem_cons.mp h with rfl | h
  · exact Or.inl rfl
  right
  rcases List.mem_cons.mp h with rfl | h
  · exact isUnreserved_hexDigit (by omega)
  · obtain rfl := List.mem_singleton.mp h
    exact isUnreserved_hexDigit (by omega)

theorem mem_percentEncode {t : Text} {c : Char} (h : c ∈ percentEncode t) :
    c = '%' ∨ isUnreserved c := by
  obtain ⟨d, -, hc⟩ := List.mem_flatMap.mp h
  split_ifs at hc with hd
  · obtain rfl := List.mem_singleton.mp hc
    exact Or.inr hd
  · obtain ⟨b, -, hb⟩ := List.mem_flatMap.mp hc
    exact mem_percentByte hb

theorem brace_not_mem_percentEncode (t : Text) : '\x7b' ∉ percentEncode t := by
  intro h
  have hneither : ¬('\x7b' = '%' ∨ isUnreserved '\x7b') := by decide
  exact hneither (mem_percentEncode h)

/-! ### The placeholders of a template -/

/-- The placeholders of link templates, in the order of their replacement. -/
def linkPlaceholders : List Text :=
  ["\x7btag\x7d", "\x7braw_tag\x7d", "\x7bpackage\x7d", "\x7bversion\x7d", "\x7bsdk_name\x7d"]

theorem areSeparate_linkPlaceholders : AreSeparate linkPlaceholders := by
  constructor
  · decide
  · decide

/-- The placeholders of link templates with their values for a release. -/
def linkTable (release : ReleaseInfo) : Table :=
  linkPlaceholders.zip
    [percentEncode release.tag, release.tag, release.package, release.version, release.sdkName]

/-- The link with all placeholders of its template expanded in one pass. -/
def expandedLink (template : Text) (release : ReleaseInfo) : Text :=
  expand (linkTable release) template

/-- No placeholder is met at more places, where those before it are expanded, than the template
has. -/
def MeetsNoNewPlaceholder (template : Text) (release : ReleaseInfo) : Prop :=
  ∀ front row, front ++ [row] <+: linkTable release →
    occurrences row.1 (expand front template) = occurrences row.1 template

theorem documentationLink_eq_replaceEach (template : Text) (release : ReleaseInfo) :
    documentationLink template release = replaceEach (linkTable release) template := rfl

theorem areSeparate_linkTable (release : ReleaseInfo) :
    AreSeparate ((linkTable release).map Prod.fst) :=
  areSeparate_linkPlaceholders

theorem beginsWith_of_mem_linkTable {release : ReleaseInfo} {row : Text × Text}
    (h : row ∈ linkTable release) : BeginsWith '\x7b' row.1 := by
  have hall : ∀ placeholder ∈ linkPlaceholders, BeginsWith '\x7b' placeholder := by decide
  exact hall row.1 (List.mem_map_of_mem h)

theorem forall_mem_dropLast_linkTable {release : ReleaseInfo} (htag : '\x7b' ∉ release.tag)
    (hpackage : '\x7b' ∉ release.package) (hversion : '\x7b' ∉ release.version) :
    ∀ row ∈ (linkTable release).dropLast, '\x7b' ∉ row.2 := by
  simp only [linkTable, linkPlaceholders, List.zip_cons_cons, List.zip_nil_right,
    List.dropLast_cons_cons, List.dropLast_singleton, List.forall_mem_cons]
  exact ⟨brace_not_mem_percentEncode release.tag, htag, hpackage, hversion, nofun⟩

theorem forall_mem_linkTable {release : ReleaseInfo} (htag : '\x7b' ∉ release.tag)
    (hpackage : '\x7b' ∉ release.package) (hversion : '\x7b' ∉ release.version)
    (hsdkName : '\x7b' ∉ release.sdkName) : ∀ row ∈ linkTable release, '\x7b' ∉ row.2 := by
  simp only [linkTable, linkPlaceholders, List.zip_cons_cons, List.zip_nil_right,
    List.forall_mem_cons]
  exact ⟨brace_not_mem_percentEncode release.tag, htag, hpackage, hversion, hsdkName, nofun⟩

/-! ### Five replacements and one pass -/

/-- A link is that of one pass if neither the fields, but for the last one, nor the template beside
its placeholders have a brace. -/
theorem documentationLink_eq_expandedLink {template : Text} {release : ReleaseInfo}
    (htag : '\x7b' ∉ release.tag) (hpackage : '\x7b' ∉ release.package)
    (hversion : '\x7b' ∉ release.version)
    (hblank : '\x7b' ∉ expand (linkTable release).blank template) :
    documentationLink template release = expandedLink template release :=
  (areSeparate_linkTable release).replaceEach_eq_expand_of_blank
    (fun _ => beginsWith_of_mem_linkTable) (forall_mem_dropLast_linkTable htag hpackage hversion)
    hblank

theorem documentationLink_linkTemplate (dialect : Dialect) {release : ReleaseInfo}
    (htag : '\x7b' ∉ release.tag) (hpackage : '\x7b' ∉ release.package)
    (hversion : '\x7b' ∉ release.version) :
    documentationLink dialect.rules.linkTemplate release =
      expandedLink dialect.rules.linkTemplate release := by
  apply documentationLink_eq_expandedLink htag hpackage hversion
  have htable : (linkTable release).blank = linkPlaceholders.map fun p => (p, []) := rfl
  rw [htable]
  cases dialect <;> decide +kernel

/-- **When a link is that of a single pass.** Every step of the replacement does what one pass does
exactly if it meets its placeholder at no more places than the template has, or puts the placeholder
itself. If no field has a brace, this is so exactly if the link is that of one pass; and it is that
of one pass, whatever the last field is, if the template has no brace beside its placeholders. -/
theorem documentationLink_expanded_once_iff (template : Text) (release : ReleaseInfo) :
    let table := linkTable release
    documentationLink template release = replaceEach table template ∧
    ((∀ front, front <+: table → replaceEach front template = expand front template) ↔
      ∀ front row, front ++ [row] <+: table →
        row.2 = row.1 ∨
          occurrences row.1 (expand front template) = occurrences row.1 template) ∧
    ('\x7b' ∉ release.tag → '\x7b' ∉ release.package → '\x7b' ∉ release.version →
      ('\x7b' ∉ expand table.blank template →
        documentationLink template release = expandedLink template release) ∧
      ('\x7b' ∉ release.sdkName →
        (documentationLink template release = expandedLink template release ↔
          MeetsNoNewPlaceholder template release))) := by
  intro table
  have hseparate := areSeparate_linkTable release
  have hbegins : ∀ row ∈ table, BeginsWith '\x7b' row.1 := fun _ => beginsWith_of_mem_linkTable
  refine ⟨documentationLink_eq_replaceEach template release,
    replaceEach_eq_expand_iff hseparate template, ?_⟩
  intro htag hpackage hversion
  constructor
  · exact documentationLink_eq_expandedLink htag hpackage hversion
  · intro hsdkName
    have hvalues := forall_mem_linkTable htag hpackage hversion hsdkName
    exact hseparate.replaceEach_eq_iff_of_values hbegins hvalues template

/-- A tag that is a placeholder is expanded where it was put. -/
theorem documentationLink_twice :
    ¬∀ template release, documentationLink template release = expandedLink template release := by
  intro h
  have hsame := h "\x7braw_tag\x7d" ⟨"\x7bpackage\x7d", "p", "1", "p"⟩
  revert hsame
  decide +kernel

/-- A field without braces completes a placeholder whose braces are in the template. -/
example : documentationLink "\x7b\x7btag\x7d\x7d" ⟨"package", "p", "1", "p"⟩ = "p" := by
  decide +kernel

theorem documentationLink_expanded_once_beta :
    let template : Text := "x/\x7btag\x7d|\x7braw_tag\x7d/\x7bsdk_name\x7d-\x7bpackage\x7d"
    let release : ReleaseInfo := ⟨"v1 beta/x", "sdk/a", "1.0.0", "a"⟩
    ('\x7b' ∉ release.tag ∧ '\x7b' ∉ release.package ∧ '\x7b' ∉ release.version ∧
      '\x7b' ∉ release.sdkName ∧ '\x7b' ∉ expand (linkTable release).blank template) ∧
    documentationLink template release = "x/v1%20beta%2Fx|v1 beta/x/a-sdk/a" ∧
    MeetsNoNewPlaceholder template release := by
  intro template release
  have htag : '\x7b' ∉ release.tag := by decide
  have hpackage : '\x7b' ∉ release.package := by decide
  have hversion : '\x7b' ∉ release.version := by decide
  have hsdkName : '\x7b' ∉ release.sdkName := by decide
  have hblank : '\x7b' ∉ expand (linkTable release).blank template := by decide +kernel
  obtain ⟨-, -, hfields⟩ := documentationLink_expanded_once_iff template release
  obtain ⟨honce, hiff⟩ := hfields htag hpackage hversion
  refine ⟨⟨htag, hpackage, hversion, hsdkName, hblank⟩, ?_, (hiff hsdkName).mp (honce hblank)⟩
  rw [honce hblank]
  decide +kernel

end SampleHarvest
