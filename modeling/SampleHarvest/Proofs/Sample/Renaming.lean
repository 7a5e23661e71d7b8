import SampleHarvest.Proofs.Sample.Sources
import SampleHarvest.Proofs.Text.Expansion

/-!
# Renamed symbols

A symbol without a line feed cannot begin in one line and end in the next, so renaming each line of a
standalone source by itself renames the whole source. If symbol and replacement have nothing in
common at their ends and neither holds the other, no symbol can form around a replacement: the
renamed source has no occurrence of the symbol, and renaming it again changes nothing.
-/

namespace SampleHarvest

open Text

/-- Neither text of a rename holds the other, and no end of one is a beginning of the other. -/
structure Rename.IsSeparate (rename : Rename) : Prop where
  detached : Detached rename.replacement rename.source
  not_within : ¬rename.source <:+: rename.replacement

theorem Text.replaceAll_lines {pattern : Text} (hpattern : pattern ≠ []) (hfeed : '\n' ∉ pattern)
    (value t : Text) :
    ((splitLines t).map (replaceAll pattern value)).flatten = replaceAll pattern value t := by
  induction t using lines_induction with
  | nil => exact ((expands_replaceAll_iff hpattern).mp Expands.nil).symm
  | last t hne hlast =>
      rw [splitLines_of_not_mem hlast hne, List.map_singleton, List.flatten_singleton]
  | line front rest hfront ih =>
      have hapart : EndsApart (front ++ ['\n']) pattern := by
        apply endsApart_of_getLast?
        rw [List.getLast?_concat]
        rintro c ⟨rfl⟩
        exact hfeed
      have hwhole := (expands_replaceAll hpattern value (front ++ ['\n'])).append
        (expands_replaceAll hpattern value rest)
        (fun row hrow => by rwa [List.mem_singleton.mp hrow])
      rw [splitLines_append_lineFeed hfront, List.map_cons, List.flatten_cons, ih,
        ← (expands_replaceAll_iff hpattern).mp hwhole, List.append_assoc, List.singleton_append]

namespace Sample

variable {rules : DialectRules} {lines : List Line} {u : SampleUnit}

theorem standalone_sublist (hu : u ∈ (ofLines rules lines).units) :
    ((ofLines rules lines).standalone rules u none).Sublist lines :=
  (rules.trimHeader_suffix _).sublist.trans (assemble_sublist hu)

/-- **Renaming is complete.** A symbol without a line feed is renamed in the whole standalone source
of a valid unit, from left to right and wherever it occurs, though each line is renamed by itself. If
symbol and replacement are separate, the symbol does not occur in what results, neither in the whole
nor in a line, and renaming it again changes nothing. -/
theorem standalone_rename_complete (rules : DialectRules) (text : Text) {rename : Rename}
    (hsource : rename.source ≠ []) (hfeed : '\n' ∉ rename.source) {u : SampleUnit}
    (hu : u ∈ (ofLines rules (splitLines text)).units) :
    let sample := ofLines rules (splitLines text)
    let plain := (sample.standalone rules u none).flatten
    let renamed := sample.standalone rules u (some rename)
    renamed.flatten = rename.apply plain ∧
    Expands [(rename.source, rename.replacement)] plain renamed.flatten ∧
    (rename.IsSeparate → ¬rename.source <:+: renamed.flatten ∧
      (∀ line ∈ renamed, ¬rename.source <:+: line) ∧
      renamed.map rename.apply = renamed ∧ rename.apply renamed.flatten = renamed.flatten) := by
  intro sample plain renamed
  have hlines : splitLines plain = sample.standalone rules u none :=
    splitLines_flatten_of_sublist (standalone_sublist hu)
  have hwhole : renamed.flatten = rename.apply plain := by
    have hlinewise := replaceAll_lines hsource hfeed rename.replacement plain
    rwa [hlines] at hlinewise
  have hexpands : Expands [(rename.source, rename.replacement)] plain renamed.flatten := by
    rw [hwhole]
    exact expands_replaceAll hsource rename.replacement plain
  refine ⟨hwhole, hexpands, fun hseparate => ?_⟩
  have hnone := hexpands.absent hsource hseparate.detached hseparate.not_within
  have hline : ∀ line ∈ renamed, ¬rename.source <:+: line := fun line hmem hoccurs =>
    hnone (hoccurs.trans (List.infix_of_mem_flatten hmem))
  have hagain : renamed.map rename.apply = renamed.map id := List.map_congr_left fun line hmem =>
    replaceAll_of_absent (hline line hmem) rename.replacement
  exact ⟨hnone, hline, hagain.trans (List.map_id _),
    replaceAll_of_absent hnone rename.replacement⟩

/-- A class whose name stands three times in one standalone source, once at the end of the text. -/
theorem standalone_rename_complete_class :
    let text : Text := "package a;\nclass Sa \x7b\n* x-ms-original-file: B\n" ++
      "    public static void b() \x7b SSa();\n    \x7d\n\x7d // Sa"
    let rename : Rename := ⟨"Sa", "Main"⟩
    let u : SampleUnit := ⟨some "B", 2, 5, ((splitLines text).take 5).drop 2⟩
    let sample := ofLines Dialect.java.rules (splitLines text)
    rename.source ≠ [] ∧ '\n' ∉ rename.source ∧ u ∈ sample.units ∧ rename.IsSeparate ∧
      ¬rename.source <:+: (sample.standalone Dialect.java.rules u (some rename)).flatten ∧
      sample.standalone Dialect.java.rules u (some rename) =
        ["class Main \x7b\n", "* x-ms-original-file: B\n",
          "    public static void b() \x7b SMain();\n", "    \x7d\n", "\x7d // Main"] := by
  intro text rename u sample
  have hsource : rename.source ≠ [] := by decide
  have hfeed : '\n' ∉ rename.source := by decide
  have hu : u ∈ sample.units := by decide +kernel
  have hseparate : rename.IsSeparate := ⟨⟨by decide, by decide, by decide⟩, by decide⟩
  obtain ⟨-, -, hcomplete⟩ := standalone_rename_complete Dialect.java.rules text hsource hfeed hu
  exact ⟨hsource, hfeed, hu, hseparate, (hcomplete hseparate).1, by decide +kernel⟩

end Sample

end SampleHarvest
