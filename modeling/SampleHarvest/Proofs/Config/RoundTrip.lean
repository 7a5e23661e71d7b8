import SampleHarvest.Config.File
import SampleHarvest.Proofs.Disk.Change
import SampleHarvest.Proofs.Text.Utf8
import SampleHarvest.Proofs.Toml.Document

/-!
# Settings are read as they were saved

The written form of settings has a section for each part, and an option that is not set has no line.
Read with the defaults of any user it gives the settings again, since the options that have no line
are not set by default either. What is read is checked as a whole afterwards.
-/

namespace SampleHarvest

open Toml (Field Written)

namespace Toml

/-! ### Reading tables -/

/-- Texts in order are read one by one. -/
theorem eachElement_strings (wanted : Text) (texts : List Text) :
    eachElement (asText wanted) (texts.map .string) = .ok texts := by
  rw [eachElement]
  -- The numbers of the elements matter for faults only.
  generalize 0 = first
  induction texts generalizing first with
  | nil => rfl
  | cons t texts ih =>
      rw [List.map_cons, List.zipIdx_cons, List.mapM_cons, ih (first + 1)]
      rfl

variable {α : Type} {keys : List Text} {kind : Text} {set : Text → Toml → α → Except Fault α}

def Field.change (set : Text → Toml → α → Except Fault α) (field : Field) (settings : α) :
    Except Fault α :=
  match field.found? with
  | some found => (set field.key found.value settings).mapError (·.under (.key field.key))
  | none => .ok settings

/-- The fields of a section change the settings one after the other. -/
theorem configure_fields (default : α) (fields : List Field) :
    configure keys kind set default (.table .defined (fields.filterMap Field.entry?)) =
      fields.foldlM (fun settings field => field.change set settings) default := by
  induction fields generalizing default with
  | nil => rfl
  | cons field fields ih =>
      obtain ⟨key, hkey, found?⟩ := field
      rw [List.foldlM_cons]
      cases found? with
      | none => exact ih default
      | some found =>
          have hcons : configure keys kind set default
              (.table .defined ((Field.mk key hkey (some found) :: fields).filterMap Field.entry?)) =
              ((set key found.value default).mapError (·.under (.key key)) >>= fun settings =>
                configure keys kind set settings
                  (.table .defined (fields.filterMap Field.entry?))) := rfl
          have hchange : (Field.mk key hkey (some found)).change set default =
              (set key found.value default).mapError (·.under (.key key)) := rfl
          rw [hcons, hchange]
          cases set key found.value default with
          | error fault => rfl
          | ok settings => exact ih settings

end Toml

namespace LedgerSettings

def written (settings : LedgerSettings) : Toml.Section where
  key := "ledger"
  isBareKey := by decide
  fields :=
    [⟨"path", by decide, some (.ofText settings.path)⟩,
      ⟨"on_duplicate", by decide, some (.ofText settings.onDuplicate.name)⟩]
  nodup := by
    change (["path", "on_duplicate"] : List Text).Nodup
    decide

theorem document_eq (settings : LedgerSettings) : settings.document = settings.written.text := by
  rw [document, Toml.Section.text, List.append_assoc]
  dsimp only [written]
  simp only [List.flatMap_cons, List.flatMap_nil, List.append_nil]
  rfl

/-- Settings are read from the section that they are written as, whatever the defaults are. -/
theorem ofToml_written (default settings : LedgerSettings) :
    default.ofToml settings.written.entry.2 = .ok settings := by
  obtain ⟨path, policy⟩ := settings
  cases policy <;> rfl

end LedgerSettings

namespace ValidationSettings

theorem isWritable_iff {settings : ValidationSettings} : settings.isWritable ↔
    (settings.concurrency : Int) ≤ Toml.maxInteger ∧
      ∀ seconds : Nat, settings.timeoutSeconds? = some seconds →
        (seconds : Int) ≤ Toml.maxInteger := by
  simp only [isWritable, Bool.and_eq_true, decide_eq_true_eq, Option.all_eq_true]

def written (settings : ValidationSettings) (h : settings.isWritable) : Toml.Section where
  key := "validation"
  isBareKey := by decide
  fields :=
    [⟨"concurrency", by decide,
        some (.ofNat settings.concurrency (isWritable_iff.mp h).1)⟩,
      ⟨"timeout_secs", by decide,
        settings.timeoutSeconds?.pmap Written.ofNat (isWritable_iff.mp h).2⟩,
      ⟨"command", by decide, settings.command?.map .ofText⟩,
      ⟨"args", by decide, some (.ofTexts settings.arguments)⟩]
  nodup := by
    change (["concurrency", "timeout_secs", "command", "args"] : List Text).Nodup
    decide

theorem text_field {key : Text} (hkey : Toml.IsBareKey key) (found? : Option Written) :
    Field.text ⟨key, hkey, found?⟩ = optionalLine key (found?.map Written.text) := by
  cases found? <;> rfl

theorem map_text_ofNat {n? : Option Nat} (h : ∀ n, n? = some n → (n : Int) ≤ Toml.maxInteger) :
    (n?.pmap Written.ofNat h).map Written.text = n?.map Text.ofNat := by
  cases n? <;> rfl

theorem document_eq (settings : ValidationSettings) (h : settings.isWritable) :
    settings.document = (settings.written h).text := by
  have hcommand : (settings.command?.map Written.ofText).map Written.text =
      settings.command?.map Toml.stringText := by
    cases settings.command? <;> rfl
  rw [document, Toml.Section.text]
  dsimp only [written]
  simp only [List.flatMap_cons, List.flatMap_nil, text_field, map_text_ofNat, hcommand,
    Option.map_some, List.append_assoc, List.append_nil]
  rfl

theorem set_arguments (settings : ValidationSettings) (arguments : List Text) :
    set "args" (.array (arguments.map .string)) settings = .ok { settings with arguments } := by
  have hset : set "args" (.array (arguments.map .string)) settings =
      (Toml.eachElement (Toml.asText "a string") (arguments.map .string) >>= fun arguments =>
        .ok { settings with arguments }) := rfl
  rw [hset, Toml.eachElement_strings]
  rfl

theorem change_timeoutSeconds {concurrency : Nat} {command? : Option Text} {arguments : List Text}
    {hkey : Toml.IsBareKey "timeout_secs"} {seconds? : Option Nat}
    (h : ∀ seconds, seconds? = some seconds → (seconds : Int) ≤ Toml.maxInteger) :
    Field.change set ⟨"timeout_secs", hkey, seconds?.pmap Written.ofNat h⟩
        ⟨concurrency, none, command?, arguments⟩ =
      .ok ⟨concurrency, seconds?, command?, arguments⟩ := by
  cases seconds? <;> rfl

theorem change_command {concurrency : Nat} {seconds? : Option Nat} {arguments : List Text}
    {hkey : Toml.IsBareKey "command"} (command? : Option Text) :
    Field.change set ⟨"command", hkey, command?.map .ofText⟩
        ⟨concurrency, seconds?, none, arguments⟩ =
      .ok ⟨concurrency, seconds?, command?, arguments⟩ := by
  cases command? <;> rfl

theorem change_arguments (settings : ValidationSettings) {hkey : Toml.IsBareKey "args"}
    (arguments : List Text) :
    Field.change set ⟨"args", hkey, some (.ofTexts arguments)⟩ settings =
      .ok { settings with arguments } := by
  change (set "args" (.array (arguments.map .string)) settings).mapError _ = _
  rw [set_arguments]
  rfl

/-- Settings are read from the section that they are written as, if the options are not set by
default. -/
theorem ofToml_written {default settings : ValidationSettings} (h : settings.isWritable)
    (htimeout : default.timeoutSeconds? = none) (hcommand : default.command? = none) :
    default.ofToml (settings.written h).entry.2 = .ok settings := by
  obtain ⟨concurrency, seconds?, command?, arguments⟩ := default
  obtain rfl : seconds? = none := htimeout
  obtain rfl : command? = none := hcommand
  have hconcurrency : ∀ hkey, Field.change set
      ⟨"concurrency", hkey, some (.ofNat settings.concurrency (isWritable_iff.mp h).1)⟩
        ⟨concurrency, none, none, arguments⟩ =
      .ok ⟨settings.concurrency, none, none, arguments⟩ := fun _ => rfl
  rw [ofToml, Toml.Section.entry, Toml.configure_fields]
  dsimp only [written]
  simp only [List.foldlM_cons, List.foldlM_nil, hconcurrency, change_timeoutSeconds, change_command,
    change_arguments, bind, Except.bind]
  rfl

end ValidationSettings

namespace DocsSettings

def written (settings : DocsSettings) : Toml.Section where
  key := "docs"
  isBareKey := by decide
  fields :=
    [⟨"go", by decide, settings.go?.map .ofText⟩,
      ⟨"js", by decide, settings.javaScript?.map .ofText⟩,
      ⟨"java", by decide, settings.java?.map .ofText⟩]
  nodup := by
    change (["go", "js", "java"] : List Text).Nodup
    decide

theorem document_eq (settings : DocsSettings) : settings.document = settings.written.text := by
  obtain ⟨go?, javaScript?, java?⟩ := settings
  cases go? <;> cases javaScript? <;> cases java? <;>
    simp [document, written, Toml.Section.text, Field.text, Written.ofText,
      ValidationSettings.optionalLine]

theorem ofToml_written (settings : DocsSettings) :
    DocsSettings.ofToml ⟨none, none, none⟩ settings.written.entry.2 = .ok settings := by
  obtain ⟨go?, javaScript?, java?⟩ := settings
  cases go? <;> cases javaScript? <;> cases java? <;> rfl

end DocsSettings

namespace Disk

variable {disk written : Disk} {path : Path} {text : Text}

theorem readText_of_writeText (h : disk.writeText path text = .ok written) :
    written.readText path = .ok text := by
  obtain ⟨folder, name, hplace, rfl⟩ := writeText_ok h
  obtain ⟨hfolder, hfree, hleads⟩ := filePlace_leads hplace
  have hlook : (disk.put folder name (.file (.bytes (Utf8.encode text)))).root.look
      (folder ++ [name]) = .file (.bytes (Utf8.encode text)) :=
    (look_put_file hfolder hfree _).trans (if_pos rfl)
  rw [readText, readContent_of_fileAt? (hleads _) hlook]
  dsimp only
  rw [Utf8.decode?_encode]

end Disk

namespace Config

variable {config : Config}

def written (config : Config) (h : config.validation.isWritable) : List Toml.Section :=
  [config.ledger.written, config.validation.written h, config.docs.written]

theorem document?_eq (h : config.validation.isWritable) :
    config.document? = some (Text.joinWith ['\n'] ((config.written h).map Toml.Section.text)) := by
  rw [document?, if_pos h, config.ledger.document_eq, config.validation.document_eq h,
    config.docs.document_eq, written]
  simp only [List.map_cons, List.map_nil, Text.joinWith, List.append_assoc]
  rfl

theorem set_ledger {value : Toml} {ledger : LedgerSettings}
    (h : config.ledger.ofToml value = .ok ledger) :
    set "ledger" value config = .ok { config with ledger } := by
  have hset : set "ledger" value config =
      (config.ledger.ofToml value >>= fun ledger => .ok { config with ledger }) := rfl
  rw [hset, h]
  rfl

theorem set_validation {value : Toml} {validation : ValidationSettings}
    (h : config.validation.ofToml value = .ok validation) :
    set "validation" value config = .ok { config with validation } := by
  have hset : set "validation" value config =
      (config.validation.ofToml value >>= fun validation => .ok { config with validation }) := rfl
  rw [hset, h]
  rfl

theorem set_docs {value : Toml} {docs : DocsSettings} (h : config.docs.ofToml value = .ok docs) :
    set "docs" value config = .ok { config with docs } := by
  have hset : set "docs" value config =
      (config.docs.ofToml value >>= fun docs => .ok { config with docs }) := rfl
  rw [hset, h]
  rfl

/-- Settings are read from the document that they are written as, with the defaults of any user. -/
theorem parse_written (h : config.validation.isWritable) (ledgerPath : Path) :
    (default ledgerPath).parse (Text.joinWith ['\n'] ((config.written h).map Toml.Section.text)) =
      .ok config := by
  have hnodup : ((config.written h).map Toml.Section.key).Nodup := by
    change (["ledger", "validation", "docs"] : List Text).Nodup
    decide
  rw [parse, Toml.parse_sections hnodup]
  change ((set "ledger" config.ledger.written.entry.2 (default ledgerPath)).mapError _ >>=
    fun settings => (set "validation" (config.validation.written h).entry.2 settings).mapError _ >>=
      fun settings => (set "docs" config.docs.written.entry.2 settings).mapError _ >>= pure) = _
  rw [set_ledger (LedgerSettings.ofToml_written _ _)]
  change ((set "validation" (config.validation.written h).entry.2 _).mapError _ >>=
      fun settings => (set "docs" config.docs.written.entry.2 settings).mapError _ >>= pure) = _
  rw [set_validation (ValidationSettings.ofToml_written h rfl rfl)]
  change ((set "docs" config.docs.written.entry.2 _).mapError _ >>= pure) = _
  rw [set_docs (DocsSettings.ofToml_written config.docs)]
  rfl

/-- Settings that may be used: a file is taken at a time, and the validation program has a name. -/
def IsUsable (config : Config) : Prop :=
  1 ≤ config.validation.concurrency ∧
    ∀ command, config.validation.command? = some command → Text.trim command ≠ []

theorem defect?_eq_none_iff : config.defect? = none ↔ config.IsUsable := by
  have hblank : (config.validation.command?.any fun command => command.trim.isEmpty) = false ↔
      ∀ command, config.validation.command? = some command → Text.trim command ≠ [] := by
    cases config.validation.command? <;> simp
  rw [defect?, IsUsable, ← hblank]
  split_ifs with hnone hempty
  · simp [hnone]
  · simp [hempty]
  · simp only [true_iff]
    exact ⟨Nat.pos_of_ne_zero hnone, Bool.eq_false_iff.mpr hempty⟩

theorem saveTo_eq_ok_iff {document : Text} (h : config.document? = some document)
    (disk saved : Disk) (path : Path) : config.saveTo disk path = (saved, .ok ()) ↔
      ∃ made, disk.createFolders ((Path.parent? path).getD []) = (made, .ok ()) ∧
        made.writeText path document = .ok saved := by
  rw [saveTo]
  cases hfolders : disk.createFolders ((Path.parent? path).getD []) with
  | mk made result =>
      cases result with
      | error fault => simp
      | ok =>
          rw [h]
          dsimp only
          cases hwritten : made.writeText path document <;> simp [hwritten]

theorem loadFrom_of_readText {document : Text} (hdocument : config.document? = some document)
    (h : config.validation.isWritable) {disk : Disk} {path : Path}
    (hread : disk.readText path = .ok document) (ledgerPath : Path) :
    (default ledgerPath).loadFrom disk path =
      match config.defect? with
      | some defect => .error (.config defect.message)
      | none => .ok config := by
  obtain rfl := Option.some.inj ((document?_eq h).symm.trans hdocument)
  cases hdefect : config.defect? <;> simp only [loadFrom, hread, parse_written h, hdefect]

/-- **The round trip.** Settings whose numbers are not too great have a written form. They are saved
unless the disk refuses, and what is saved is this form. It is read as the same settings, whatever
the ledger path of the user is, if the settings may be used, and otherwise refused. -/
theorem loadFrom_saveTo (config : Config) (h : config.validation.isWritable) :
    ∃ document, config.document? = some document ∧ ∀ disk path saved,
      (config.saveTo disk path = (saved, .ok ()) ↔
        ∃ made, disk.createFolders ((Path.parent? path).getD []) = (made, .ok ()) ∧
          made.writeText path document = .ok saved) ∧
      (config.saveTo disk path = (saved, .ok ()) →
        saved.readText path = .ok document ∧ ∀ ledgerPath,
          (config.IsUsable → (default ledgerPath).loadFrom saved path = .ok config) ∧
          (¬config.IsUsable →
            ∃ message, (default ledgerPath).loadFrom saved path = .error (.config message))) := by
  refine ⟨_, document?_eq h, fun disk path saved => ?_⟩
  have hsave := saveTo_eq_ok_iff (document?_eq h) disk saved path
  refine ⟨hsave, fun hsaved => ?_⟩
  obtain ⟨made, -, hwritten⟩ := hsave.mp hsaved
  have hread := Disk.readText_of_writeText hwritten
  refine ⟨hread, fun ledgerPath => ?_⟩
  rw [loadFrom_of_readText (document?_eq h) h hread, ← defect?_eq_none_iff]
  cases config.defect? with
  | none => simp
  | some defect => simp

/-- Settings with quotes, line ends and a control character, and with an option that is not set. -/
def quotedSettings : Config where
  ledger := ⟨"a\"b\x27c\\d", .replace⟩
  validation := ⟨2, some 30, some "run\r\n\"\"\"", ["\x27", "two\nlines", "\x27\x27\x27 \\"]⟩
  docs := ⟨some "\x01", none, some []⟩

/-- These settings are saved on an empty disk and read again. -/
theorem loadFrom_saveTo_quotedSettings :
    quotedSettings.validation.isWritable ∧ ∃ saved,
      quotedSettings.saveTo ⟨.folder [], []⟩ "settings.toml" = (saved, .ok ()) ∧
        (default "ledger.db").loadFrom saved "settings.toml" = .ok quotedSettings := by
  have hwritable : quotedSettings.validation.isWritable := by decide
  have husable : quotedSettings.IsUsable := by
    refine ⟨by decide, fun command hcommand => ?_⟩
    obtain rfl := Option.some.inj hcommand
    decide
  have hsaved : (quotedSettings.saveTo ⟨.folder [], []⟩ "settings.toml").2.toOption = some () := by
    decide +kernel
  obtain ⟨document, -, hround⟩ := loadFrom_saveTo quotedSettings hwritable
  cases hsave : quotedSettings.saveTo ⟨.folder [], []⟩ "settings.toml" with
  | mk saved result =>
      rw [hsave] at hsaved
      cases result with
      | error failure => cases hsaved
      | ok =>
          obtain ⟨-, hloaded⟩ := (hround ⟨.folder [], []⟩ "settings.toml" saved).2 hsave
          exact ⟨hwritable, saved, rfl, (hloaded "ledger.db").1 husable⟩

end Config

end SampleHarvest
