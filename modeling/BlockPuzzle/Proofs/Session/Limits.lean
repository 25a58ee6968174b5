import BlockPuzzle.Proofs.Attempt.Ahead
import BlockPuzzle.Proofs.Attempt.Limits
import BlockPuzzle.Proofs.Session.Run

/-!
# Limits of a session

The limits on ticks and on frames only cut runs off. In a session with wider limits a script is run to
the same end if it was not cut off, and in any case at least as far: `Session.run_cut_off`.
-/

namespace BlockPuzzle.Session

/-- A run is the execution in an attempt that is like any other, but for how often marks were wiped
before. -/
lemma execution_eq (session : Session) (script : String) :
    let first := (Attempt.fresh session.level.startPose .empty).execute session.level.board
      session.settings script
    session.execution script = (first.1, first.2.ahead ⟨0, 0, session.attempt.marks.wipes + 1⟩) := by
  have attempt : session.reset.attempt = (Attempt.fresh session.level.startPose .empty).ahead
      ⟨0, 0, session.attempt.marks.wipes + 1⟩ := by
    simp only [reset, Attempt.fresh, Attempt.ahead, Marks.wipe, Marks.ahead, Marks.empty,
      Nat.zero_add]
  unfold execution
  rw [attempt, Attempt.execute_ahead]

/-- Two runs of a script on one level, the second one under limits that are wider: if the first one
ends without being cut off, the second one gives the same report and journal; and in any case the
second one begins with the journal of the first one and makes as many ticks or more. -/
theorem run_cut_off {narrow wide : Session} (level : wide.level = narrow.level)
    (widens : narrow.settings.Widens wide.settings) (script : String) :
    ∃ report report', (narrow.run script).1 = .ok report ∧ (wide.run script).1 = .ok report' ∧
      Attempt.CutOff report report' (narrow.run script).2.attempt.journal.toList
        (wide.run script).2.attempt.journal.toList := by
  obtain ⟨replay, -, ran⟩ := narrow.run_eq script
  obtain ⟨replay', -, ran'⟩ := wide.run_eq script
  rw [ran, ran', narrow.execution_eq, wide.execution_eq, level]
  exact ⟨_, _, rfl, rfl, Attempt.execute_cutOff _ _ widens script⟩

/-- The corridor, where programs may make a single tick. -/
def hastyCorridor : Session :=
  { corridor with settings := { corridor.settings with tickBudget := 1 } }

/-- A turn is all that a single tick leaves time for, where there is time for a step as well. -/
theorem run_cut_off_corridor :
    corridor.level = hastyCorridor.level ∧ hastyCorridor.settings.Widens corridor.settings ∧
      ∃ report report', (hastyCorridor.run "(turn-left a) (move-forward b)").1 = .ok report ∧
        (corridor.run "(turn-left a) (move-forward b)").1 = .ok report' ∧
        Attempt.CutOff report report'
          (hastyCorridor.run "(turn-left a) (move-forward b)").2.attempt.journal.toList
          (corridor.run "(turn-left a) (move-forward b)").2.attempt.journal.toList := by
  have level : corridor.level = hastyCorridor.level := rfl
  have widens : hastyCorridor.settings.Widens corridor.settings := ⟨by decide, by decide, rfl⟩
  exact ⟨level, widens, run_cut_off level widens "(turn-left a) (move-forward b)"⟩

end BlockPuzzle.Session
