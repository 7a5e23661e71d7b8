import Mathlib.Tactic.SplitIfs
import SampleHarvest.Validation.Program

/-!
# What validation programs answer

On every system a validation program accepts exactly if it ends with status zero before its limit. A
program that was started answers in any case: the oracle fails only if the candidate cannot be
written or the program cannot be started.
-/

namespace SampleHarvest

namespace Program

variable {program : Program} {system : System} {arguments : List Text} {disk : Disk} {file : Path}
  {candidate : Candidate} {completion : Completion}

theorem verdict_accept_iff : program.verdict completion = .accept ↔
    completion.ending = .exited 0 ∧ ∀ limit ∈ program.limit?, completion.time < limit := by
  rw [verdict]
  cases hlate : program.limit?.filter fun limit => limit ≤ completion.time with
  | some limit =>
      obtain ⟨hlimit, hpassed⟩ := Option.filter_eq_some_iff.mp hlate
      refine ⟨nofun, fun h => absurd (h.2 limit hlimit) ?_⟩
      simpa using hpassed
  | none =>
      have hearly : ∀ limit ∈ program.limit?, completion.time < limit := fun limit hlimit => by
        simpa using Option.filter_eq_none_iff.mp hlate limit hlimit
      dsimp only
      split_ifs with hending
      · exact ⟨fun _ => ⟨hending, hearly⟩, fun _ => rfl⟩
      · exact ⟨nofun, fun h => absurd h.1 hending⟩

/-- There is an answer exactly if the candidate was written and then the program started. -/
theorem answer_ok_iff {verdict : Verdict} :
    program.answer system arguments disk file candidate = .ok verdict ↔
      ∃ written completion, disk.writeText file candidate.content = .ok written ∧
        program.start system arguments written = .ok completion ∧
        program.verdict completion = verdict := by
  rw [answer]
  cases disk.writeText file candidate.content with
  | error fault => simp
  | ok written =>
      dsimp only
      cases hstart : program.start system arguments written with
      | error reason => simp [hstart]
      | ok completion => simp [hstart]

/-- **Acceptance.** On every system a candidate is accepted exactly if it is written and the program
is started and ends with status zero before its limit. -/
theorem oracleIn_accept_iff {folder : Path} :
    program.oracleIn system folder disk candidate = .ok .accept ↔
      ∃ written completion,
        disk.writeText (scratchFile folder candidate) candidate.content = .ok written ∧
        program.start system (program.arguments.map (fillIn folder candidate)) written =
          .ok completion ∧
        completion.ending = .exited 0 ∧ ∀ limit ∈ program.limit?, completion.time < limit := by
  rw [oracleIn, answer_ok_iff]
  simp only [verdict_accept_iff]

end Program

end SampleHarvest
