import Mathlib.Tactic.SplitIfs
import SampleHarvest.Csv

/-!
# The format of comma-separated values

The grammar of RFC 4180 relates texts to the records that they stand for: a field stands for itself
or is quoted, commas part the fields of a record, and line ends part the records. The last line end
may be left out, so by the grammar alone a text that ends with one could as well go on with a record
of one empty field. The rule that all records have the same number of fields decides this, and what
writing produces then has one reading only, which the reader finds.
-/

namespace SampleHarvest

namespace Csv

/-! ### The grammar -/

/-- What stands between the quotes of a field with this value. -/
inductive IsQuoted : Text → Text → Prop
  | nil : IsQuoted [] []
  | char {c : Char} {t value : Text} (hc : c ≠ '\x22') (rest : IsQuoted t value) :
      IsQuoted (c :: t) (c :: value)
  | quote {t value : Text} (rest : IsQuoted t value) :
      IsQuoted ('\x22' :: '\x22' :: t) ('\x22' :: value)

inductive IsField : Text → Text → Prop
  | plain {value : Text} (h : ∀ c ∈ value, c ≠ ',' ∧ c ≠ '\x22' ∧ c ≠ '\r' ∧ c ≠ '\n') :
      IsField value value
  | quoted {t value : Text} (h : IsQuoted t value) : IsField ('\x22' :: (t ++ ['\x22'])) value

inductive IsRecord : Text → Record → Prop
  | last {t value : Text} (h : IsField t value) : IsRecord t [value]
  | cons {t rest value : Text} {values : Record} (h : IsField t value)
      (hrest : IsRecord rest values) : IsRecord (t ++ ',' :: rest) (value :: values)

inductive IsFile : Text → List Record → Prop
  | last {t : Text} {record : Record} (h : IsRecord t record) : IsFile t [record]
  | ended {t : Text} {record : Record} (h : IsRecord t record) : IsFile (t ++ ['\r', '\n']) [record]
  | cons {t rest : Text} {record : Record} {records : List Record} (h : IsRecord t record)
      (hrest : IsFile rest records) : IsFile (t ++ '\r' :: '\n' :: rest) (record :: records)

/-- The records of a file in which all records have the same number of fields. -/
structure Reads (t : Text) (records : List Record) : Prop where
  isFile : IsFile t records
  length_eq : ∀ a ∈ records, ∀ b ∈ records, a.length = b.length

/-! ### Writing -/

theorem isQuoted_doubleQuotes (value : Text) : IsQuoted (doubleQuotes value) value := by
  induction value with
  | nil => exact .nil
  | cons c value ih =>
      by_cases hc : c = '\x22'
      · subst hc
        simpa [doubleQuotes] using IsQuoted.quote ih
      · simpa [doubleQuotes, hc] using IsQuoted.char hc ih

theorem isField_fieldText (value : Text) : IsField (fieldText value) value := by
  rw [fieldText]
  split_ifs with hspecial
  · exact .quoted (isQuoted_doubleQuotes value)
  · refine .plain fun c hc => ?_
    have hplain : isSpecial c = false := by simpa using fun h => hspecial (List.any_eq_true.mpr ⟨c, hc, h⟩)
    simpa [isSpecial, and_assoc] using hplain

theorem isRecord_joinWith {record : Record} (h : record ≠ []) :
    IsRecord (Text.joinWith "," (record.map fieldText)) record := by
  induction record with
  | nil => exact absurd rfl h
  | cons value record ih =>
      cases record with
      | nil => exact .last (isField_fieldText value)
      | cons next record =>
          simpa [Text.joinWith] using
            IsRecord.cons (isField_fieldText value) (ih (List.cons_ne_nil next record))

theorem isFile_render {records : List Record} (hne : records ≠ [])
    (h : ∀ record ∈ records, record ≠ []) : IsFile (render records) records := by
  induction records with
  | nil => exact absurd rfl hne
  | cons record records ih =>
      obtain ⟨hrecord, hrest⟩ := List.forall_mem_cons.mp h
      cases records with
      | nil => simpa [render, recordText] using IsFile.ended (isRecord_joinWith hrecord)
      | cons next records =>
          simpa [render, recordText] using
            IsFile.cons (isRecord_joinWith hrecord) (ih (List.cons_ne_nil next records) hrest)

/-! ### Reading -/

/-- A place where a field or its record may end. -/
def Place.MayEnd (place : Place) : Prop := place ≠ .quoted ∧ place ≠ .afterReturn

variable {place : Place}

attribute [local simp] readFrom?

theorem readFrom?_comma (h : place.MayEnd) (g : Gathered) (t : Text) :
    readFrom? place g (',' :: t) = readFrom? .fieldStart g.endField t := by
  obtain ⟨hquoted, hreturn⟩ := h
  cases place <;> simp_all

theorem readFrom?_lineEnd (h : place.MayEnd) (g : Gathered) (t : Text) :
    readFrom? place g ('\r' :: '\n' :: t) = readFrom? .recordStart g.endRecord t := by
  obtain ⟨hquoted, hreturn⟩ := h
  cases place <;> simp_all

/-- Between quotes everything is gathered up to the quote that closes the field. -/
theorem readFrom?_quoted {t value : Text} (h : IsQuoted t value) (field record : List _)
    (records : List Record) (rest : Text) :
    readFrom? .quoted ⟨field, record, records⟩ (t ++ '\x22' :: rest) =
      readFrom? .afterQuote ⟨value.reverse ++ field, record, records⟩ rest := by
  induction h generalizing field with
  | nil => simp
  | char hc _ ih => simp [hc, Gathered.push, ih]
  | quote _ ih => simp [Place.isStart, Gathered.push, ih]

theorem readFrom?_plain {value : Text}
    (h : ∀ c ∈ value, c ≠ ',' ∧ c ≠ '\x22' ∧ c ≠ '\r' ∧ c ≠ '\n') (field record : List _)
    (records : List Record) (rest : Text) :
    readFrom? .plain ⟨field, record, records⟩ (value ++ rest) =
      readFrom? .plain ⟨value.reverse ++ field, record, records⟩ rest := by
  induction value generalizing field with
  | nil => rfl
  | cons c value ih =>
      obtain ⟨⟨hcomma, hquote, hreturn, hfeed⟩, hvalue⟩ := List.forall_mem_cons.mp h
      simp [hcomma, hquote, hreturn, hfeed, Gathered.push, ih hvalue]

/-- A field is gathered from where it may begin to where it may end. -/
theorem exists_readFrom?_field {t value : Text} (h : IsField t value) (hplace : place.isStart)
    (record : List Text) (records : List Record) : ∃ after : Place, after.MayEnd ∧ ∀ rest,
      readFrom? place ⟨[], record, records⟩ (t ++ rest) =
        readFrom? after ⟨value.reverse, record, records⟩ rest := by
  have hstart : place = .recordStart ∨ place = .fieldStart := by simpa [Place.isStart] using hplace
  cases h with
  | quoted hquoted =>
      refine ⟨.afterQuote, ⟨nofun, nofun⟩, fun rest => ?_⟩
      have hinside := readFrom?_quoted hquoted [] record records rest
      rcases hstart with rfl | rfl <;> simpa [Place.isStart] using hinside
  | plain hplain =>
      cases t with
      | nil => exact ⟨place, by rcases hstart with rfl | rfl <;> exact ⟨nofun, nofun⟩, fun _ => rfl⟩
      | cons c t =>
          refine ⟨.plain, ⟨nofun, nofun⟩, fun rest => ?_⟩
          obtain ⟨⟨hcomma, hquote, hreturn, hfeed⟩, ht⟩ := List.forall_mem_cons.mp hplain
          have hrest := readFrom?_plain ht [c] record records rest
          rcases hstart with rfl | rfl <;>
            simpa [hcomma, hquote, hreturn, hfeed, Gathered.push] using hrest

theorem readFrom?_record {t : Text} {values : Record} (h : IsRecord t values) (place : Place)
    (hplace : place.isStart) (record : List Text) (records : List Record) (rest : Text) :
    readFrom? place ⟨[], record, records⟩ (t ++ '\r' :: '\n' :: rest) =
      readFrom? .recordStart ⟨[], [], (record.reverse ++ values) :: records⟩ rest := by
  induction h generalizing place record with
  | last hfield =>
      obtain ⟨after, hafter, hread⟩ := exists_readFrom?_field hfield hplace record records
      simp [hread, readFrom?_lineEnd hafter, Gathered.endRecord, Gathered.endField]
  | cons hfield _ ih =>
      obtain ⟨after, hafter, hread⟩ := exists_readFrom?_field hfield hplace record records
      simp [hread, readFrom?_comma hafter, Gathered.endField, ih .fieldStart rfl]

/-- A file is read as it stands, or is read when its last record is ended. -/
theorem parse?_of_isFile {t : Text} {records : List Record} (h : IsFile t records) :
    parse? t = some records ∨ parse? (t ++ ['\r', '\n']) = some records := by
  have general : ∀ done, readFrom? .recordStart ⟨[], [], done⟩ t = some (done.reverse ++ records) ∨
      readFrom? .recordStart ⟨[], [], done⟩ (t ++ ['\r', '\n']) = some (done.reverse ++ records) := by
    induction h with
    | last hrecord =>
        exact fun done => Or.inr (by simp [readFrom?_record hrecord .recordStart rfl])
    | ended hrecord =>
        exact fun done => Or.inl (by simp [readFrom?_record hrecord .recordStart rfl])
    | cons hrecord _ ih =>
        intro done
        simpa [readFrom?_record hrecord .recordStart rfl] using ih (_ :: done)
  exact general []

theorem readFrom?_render {records : List Record} (h : ∀ record ∈ records, record ≠ [])
    (done : List Record) (rest : Text) :
    readFrom? .recordStart ⟨[], [], done⟩ (render records ++ rest) =
      readFrom? .recordStart ⟨[], [], records.reverse ++ done⟩ rest := by
  induction records generalizing done with
  | nil => rfl
  | cons record records ih =>
      obtain ⟨hrecord, hrest⟩ := List.forall_mem_cons.mp h
      have hfirst := readFrom?_record (isRecord_joinWith hrecord) .recordStart rfl [] done
      have hrender : render (record :: records) ++ rest =
          Text.joinWith "," (record.map fieldText) ++ '\r' :: '\n' :: (render records ++ rest) := by
        simp [render, recordText]
      rw [hrender, hfirst]
      simpa using ih hrest (record :: done)

theorem parse?_render {records : List Record} (h : ∀ record ∈ records, record ≠ []) :
    parse? (render records) = some records := by
  simpa [parse?] using readFrom?_render h [] []

/-- What is written for records with the same number of fields, more than one, has no other reading
than these records. -/
theorem reads_render_iff {records readings : List Record} {n : Nat} (hn : 1 < n)
    (hne : records ≠ []) (hlength : ∀ record ∈ records, record.length = n) :
    Reads (render records) readings ↔ readings = records := by
  have hnonempty : ∀ record ∈ records, record ≠ [] := by
    rintro record hrecord rfl
    exact absurd (hlength [] hrecord) (by simp; omega)
  constructor
  · rintro ⟨hfile, hsame⟩
    rcases parse?_of_isFile hfile with hread | hread
    · rw [parse?_render hnonempty] at hread
      exact (Option.some.inj hread).symm
    · -- The other reading goes on with one empty field, where the first record has more fields.
      have hmore := readFrom?_render hnonempty [] ['\r', '\n']
      rw [parse?, hmore] at hread
      have hreadings : records ++ [[[]]] = readings := by
        simpa [Gathered.endRecord, Gathered.endField] using hread
      subst hreadings
      obtain ⟨first, hfirst⟩ := List.exists_mem_of_ne_nil records hne
      have hone : first.length = 1 := hsame first (by simp [hfirst]) [[]] (by simp)
      have hmany : first.length = n := hlength first hfirst
      omega
  · rintro rfl
    exact ⟨isFile_render hne hnonempty, fun a ha b hb => (hlength a ha).trans (hlength b hb).symm⟩

end Csv

end SampleHarvest
