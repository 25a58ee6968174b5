import BlockPuzzle.Proofs.Attempt.Answers
import BlockPuzzle.Proofs.Session.Run

/-!
# Senses of a session

The journal of a run shows by which rule senses were answered. Whichever it is, the first look of every
block is answered by the board, and the report counts the answers that diverge from it:
`Session.run_answers`.
-/

namespace BlockPuzzle.Session

/-- In the journal of every run the looks are answered as the rule for senses demands, the report counts
those that diverge from the first answer of their block, and the answers by which the machine went on
are, one by one, those of the journal. -/
theorem run_answers (session : Session) (script : String) :
    let ran := session.run script
    let entries := ran.2.attempt.journal.toList
    ∃ report, ran.1 = .ok report ∧
      session.settings.senseRule.Governs session.level.board session.level.startPose entries ∧
      report.divergences = session.settings.senseRule.divergences entries ∧
      (session.calls script).filterMap Call.look? = entries.filterMap Entry.look? := by
  intro ran entries
  obtain ⟨replay, -, runs⟩ := session.run_eq script
  have ran_eq : ran = _ := runs
  simp only [entries, ran_eq]
  exact ⟨_, rfl, Attempt.execute_answers session.level.board session.level.startPose
    session.attempt.marks session.settings script⟩

end BlockPuzzle.Session
