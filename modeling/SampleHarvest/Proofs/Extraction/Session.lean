import SampleHarvest.Proofs.Extraction.Consistency

/-!
# Runs of the program

A run of the program opens the ledger, extracts, and stores the ledger. Opening and storing spare the
documents, and every run opens the rows that the run before has stored. So runs that share an output
root and the file of a ledger are extractions one after the other, and what holds after a history of
extractions holds after them.
-/

namespace SampleHarvest

namespace Extraction

variable {extraction : Extraction} {oracle : Oracle} {disk : Disk} {opened : OpenLedger}

/-- A run changes at most the rows of an open ledger, and none of one that is only read. -/
theorem run_opened (extraction : Extraction) (oracle : Oracle) (disk : Disk) (opened : OpenLedger) :
    ∃ ledger, (extraction.run oracle disk opened).opened = { opened with ledger } ∧
      (opened.isReadOnly → ledger = opened.ledger) := by
  rcases extraction.run_cases oracle disk opened with
    ⟨-, hrun⟩ | ⟨failure, made, hrun⟩ | ⟨-, harvest, made, outcome, next, -, -, hrecord, hrun⟩
  · exact ⟨opened.ledger, by rw [hrun], fun _ => rfl⟩
  · exact ⟨opened.ledger, by rw [hrun], fun _ => rfl⟩
  · obtain ⟨hwrite, ledger, -, rfl⟩ := OpenLedger.record_rows hrecord
    refine ⟨ledger, by rw [hrun], fun hreadOnly => ?_⟩
    rw [hwrite] at hreadOnly
    cases hreadOnly

end Extraction

namespace ExtractRequest

variable {request : ExtractRequest} {config : Config} {now : Instant} {extraction : Extraction}
  {oracle : Oracle} {disk start : Disk} {opened : OpenLedger} {path root : Path}
  {place : Location × Text} {log : List RunRecord} {ledger : Ledger}

/-- What is known of a run of the program, if it comes to extract anything. -/
def logged (request : ExtractRequest) (config : Config) (now : Instant) (oracle : Oracle)
    (disk : Disk) : List RunRecord :=
  match request.extraction config now, disk.openLedger (request.ledgerPath config) with
  | .ok extraction, (start, .ok opened) => [extraction.record oracle start opened]
  | _, _ => []

/-! ### The steps of one run -/

theorem opening_spares (houtside : disk.KeepsOutside root place) {location : Location}
    (hdocument : disk.HasDocumentAt root location) :
    ¬(Disk.Scope.openingAt disk (some place)).writes location ∧
      ¬(Disk.Scope.openingAt disk (some place)).drops location := by
  have hown : ∀ other, some place = some other → ¬Disk.IsLedgerFile other location :=
    fun other hother => Option.some.inj hother ▸ houtside disk .refl location hdocument
  constructor
  · rintro (hnothing | ⟨other, hother, hledger⟩)
    · obtain ⟨target, -, hfile⟩ := hdocument
      obtain ⟨content, hlook⟩ := Disk.look_of_fileAt? hfile
      rw [hlook] at hnothing
      cases hnothing
    · exact hown other hother hledger
  · rintro ⟨other, hother, hleft⟩
    exact hown other hother (Or.inr hleft)

/-- Storing the ledger changes its files only, and leaves the rows of the open ledger in them. -/
theorem storing (extraction : Extraction) (oracle : Oracle)
    (hopen : disk.openLedger path = (start, .ok opened))
    (hplace : disk.ledgerSeat? path = some place)
    (houtside : disk.KeepsOutside extraction.output place) :
    let run := extraction.run oracle start opened
    Disk.Changes ⟨fun _ => False, Disk.IsLedgerFile place, Disk.IsLeftover place⟩ run.disk
        (run.disk.storeLedger run.opened) ∧
      (run.disk.storeLedger run.opened).rowsAt? place = some run.opened.ledger := by
  intro run
  obtain ⟨ledger, hopened, hreadOnly⟩ := extraction.run_opened oracle start opened
  have hsame : run.opened.place? = opened.place? := by rw [hopened]
  have hseat := run_hasSeat extraction oracle hopen run.opened hsame
  have hnext := hsame.trans ((Disk.openLedger_place hopen).trans hplace)
  constructor
  · exact Disk.storeLedger_changesAt hseat hnext
  · rw [Disk.rowsAt?_storeLedger hseat hnext, show run.opened = { opened with ledger } from hopened]
    split_ifs with hwrite
    · rw [(rowsAt?_run oracle hopen hplace houtside).2, hreadOnly hwrite]
    · rfl

/-! ### One run -/

/-- **A run of the program.** It makes the rows in the ledger file and the documents in the output
root those of a history that goes on with this run. -/
theorem executeAsking_history (hreal : request.dryRun = false)
    (hplace : disk.ledgerSeat? (request.ledgerPath config) = some place)
    (houtside : disk.KeepsOutside request.output place)
    (hrows : disk.rowsAt? place = some ledger)
    (hhistory : History request.output log disk ledger) :
    let done := (request.executeAsking config now oracle disk).disk
    Disk.Changes .any disk done ∧ ∃ rows, done.rowsAt? place = some rows ∧
      History request.output (log ++ request.logged config now oracle disk) done rows := by
  intro done
  cases hextraction : request.extraction config now with
  | error failure =>
      have hdone : done = disk := by
        rw [show done = (request.executeAsking config now oracle disk).disk from rfl,
          executeAsking, hextraction]
      rw [hdone, logged, hextraction, List.append_nil]
      exact ⟨.refl, ledger, hrows, hhistory⟩
  | ok extraction =>
      have houtput := output_extraction hextraction
      have hopening := Disk.openLedger_changesAt disk (request.ledgerPath config)
      have hkept := Disk.openLedger_rowsAt? hplace
      rw [show done = (request.executeAsking config now oracle disk).disk from rfl,
        executeAsking_eq hreal hextraction, logged, hextraction]
      rw [hplace] at hopening
      cases hopen : disk.openLedger (request.ledgerPath config) with
      | mk start result =>
          rw [hopen] at hopening hkept
          have hstart : History request.output log start ledger :=
            hhistory.beside hopening fun location => opening_spares houtside
          cases result with
          | error failure =>
              rw [executeWith_error hopen, List.append_nil]
              exact ⟨hopening.any, ledger, hkept.trans hrows, hstart⟩
          | ok opened =>
              have hlater := hopening.any.trans (extraction.run_changes oracle start opened).any
              rw [← houtput] at houtside hstart ⊢
              obtain ⟨hstoring, hstored⟩ := storing extraction oracle hopen hplace houtside
              obtain rfl : opened.ledger = ledger := Option.some.inj
                ((Disk.openLedger_rows hopen hplace).1.symm.trans hrows)
              rw [executeWith_ok hopen]
              refine ⟨hlater.trans hstoring.any, _, hstored,
                (hstart.run extraction oracle rfl).beside hstoring fun location hdocument => ?_⟩
              have hother := houtside _ hlater location hdocument
              exact ⟨hother, fun hleft => hother (Or.inr hleft)⟩

end ExtractRequest

/-! ### Runs one after the other -/

/-- Runs of the program on a disk that are no previews and share an output root and the place of
their ledger, with what is known of them and the disk after them. -/
inductive Session (root : Path) (place : Location × Text) (disk : Disk) :
    List RunRecord → Disk → Prop
  | start : Session root place disk [] disk
  | run {log : List RunRecord} {between : Disk} (request : ExtractRequest) (config : Config)
      (now : Instant) (oracle : Oracle) (hsession : Session root place disk log between)
      (hreal : request.dryRun = false) (houtput : request.output = root)
      (hplace : between.ledgerSeat? (request.ledgerPath config) = some place) :
      Session root place disk (log ++ request.logged config now oracle between)
        (request.executeAsking config now oracle between).disk

/-- **Sessions.** Runs of the program that begin with no rows and a fresh output root are a history of
extractions, which ends with the rows in the ledger file. -/
theorem Session.history {root : Path} {place : Location × Text} {disk done : Disk}
    {log : List RunRecord} (h : Session root place disk log done) (hfresh : disk.IsFresh root)
    (hempty : disk.rowsAt? place = some .empty) (houtside : disk.KeepsOutside root place) :
    ∃ ledger, done.rowsAt? place = some ledger ∧ History root log done ledger := by
  suffices hall : Disk.Changes .any disk done ∧
      ∃ ledger, done.rowsAt? place = some ledger ∧ History root log done ledger from hall.2
  induction h with
  | start => exact ⟨.refl, .empty, hempty, .start hfresh⟩
  | @run log between request config now oracle _ hreal houtput hplace ih =>
      obtain ⟨hchanges, ledger, hrows, hhistory⟩ := ih
      subst houtput
      obtain ⟨hrun, hdone⟩ := ExtractRequest.executeAsking_history hreal hplace
        (houtside.changes hchanges) hrows hhistory
      exact ⟨hchanges.trans hrun, hdone⟩

end SampleHarvest
