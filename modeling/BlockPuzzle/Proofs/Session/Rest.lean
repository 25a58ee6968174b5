import BlockPuzzle.Proofs.Session.History

/-!
# Sessions at rest

A reset leaves nothing of an attempt (`Session.Cleared`), and a session at rest. There it stays until
a script is run, and however one waits meanwhile, nothing is delivered: `Session.Resting.silent`.
-/

namespace BlockPuzzle.Session

variable {session later : Session}

/-! ## Resets -/

/-- What a replay does not change about the session that it belongs to. -/
structure Spared (session later : Session) : Prop where
  settings : later.settings = session.settings
  level : later.level = session.level
  wipes : later.attempt.marks.wipes = session.attempt.marks.wipes

/-- A session is spared when nothing is done. -/
lemma Spared.refl (session : Session) : session.Spared session :=
  ⟨rfl, rfl, rfl⟩

/-- What is spared twice is spared. -/
lemma Spared.trans {last : Session} (first : session.Spared later) (second : later.Spared last) :
    session.Spared last where
  settings := second.settings.trans first.settings
  level := second.level.trans first.level
  wipes := second.wipes.trans first.wipes

/-- An advance spares what does not belong to the replay. -/
lemma spared_advance (session : Session) (elapsed : Millis) (delivered : List Event) :
    session.Spared (session.advance elapsed delivered).session :=
  ⟨rfl, rfl, (Performance.spared_advance _ (session.performance delivered)).wipes⟩

/-- No replay is under way, the agent is back, and nothing is left of the attempt but that the marks
were wiped once more. -/
structure Cleared (session cleared : Session) : Prop where
  settings : cleared.settings = session.settings
  level : cleared.level = session.level
  stage : cleared.replay.stage = .idle
  queue : cleared.replay.queue = []
  journal : cleared.attempt.journal.toList = []
  sensed : cleared.attempt.marks.sensed = []
  animated : cleared.attempt.marks.animated = []
  wipes : cleared.attempt.marks.wipes = session.attempt.marks.wipes + 1
  logical : cleared.attempt.logical = session.level.startPose
  display : cleared.attempt.display = session.level.startPose
  verdict : cleared.attempt.verdict = .unset
  lastReport : cleared.lastReport = none

/-- A reset clears a session, however far its replay has come. -/
lemma Spared.cleared (spared : session.Spared later) : session.Cleared later.reset where
  settings := spared.settings
  level := spared.level
  stage := rfl
  queue := rfl
  journal := rfl
  sensed := rfl
  animated := rfl
  wipes := congrArg (· + 1) spared.wipes
  logical := congrArg Level.startPose spared.level
  display := congrArg Level.startPose spared.level
  verdict := rfl
  lastReport := rfl

/-! ## Rest -/

/-- No replay is under way. -/
structure Resting (session : Session) : Prop where
  queue : session.replay.queue = []
  stage : session.replay.stage = .idle

/-- A session that is cleared rests. -/
lemma Cleared.resting (cleared : session.Cleared later) : later.Resting :=
  ⟨cleared.queue, cleared.stage⟩

/-- A session that rests has no timer to come. -/
lemma Resting.nextDeadline? (resting : session.Resting) : session.replay.nextDeadline? = none := by
  rw [Replay.nextDeadline?, resting.queue]
  rfl

/-- Waiting delivers nothing, and only the clock goes on. -/
lemma Resting.wait (resting : session.Resting) (wait : Wait) :
    (session.wait wait).delivered = [] ∧ (session.wait wait).session.Resting := by
  cases wait with
  | advance elapsed =>
    have still : session.replay.stage ≠ .animating := by
      rw [resting.stage]
      exact Stage.noConfusion
    have early : ∀ deadline, session.replay.nextDeadline? = some deadline →
        ¬ deadline ≤ session.clock.after elapsed := by
      intro deadline next
      cases resting.nextDeadline?.symm.trans next
    have waits : session.wait (.advance elapsed) =
        ⟨0, { session with clock := session.clock.after elapsed }, []⟩ := advance_early still early []
    rw [waits]
    exact ⟨rfl, resting.queue, resting.stage⟩
  | replayToEnd =>
    have none : session.nextDeadlineIn? = none := by
      rw [nextDeadlineIn?, resting.nextDeadline?]
      rfl
    have waits : session.wait .replayToEnd = ⟨0, session, []⟩ := replayToEnd_of_none none 0 []
    rw [waits]
    exact ⟨rfl, resting⟩

/-- Nothing but a run ends the rest. -/
lemma Resting.after {history : List Operation} (resting : session.Resting)
    (runs : ∀ script, .run script ∉ history) : (session.after history).Resting := by
  induction history generalizing session with
  | nil => exact resting
  | cons operation history ih =>
    have rest : ∀ script, .run script ∉ history := fun script mem =>
      runs script (List.mem_cons_of_mem _ mem)
    cases operation with
    | run script => exact absurd List.mem_cons_self (runs script)
    | reset =>
      have resting : session.reset.Resting := ⟨rfl, rfl⟩
      exact ih resting rest
    | wait wait => exact ih (resting.wait wait).2 rest

/-- Until a script is run, no waiting delivers anything. -/
theorem Resting.silent {history : List Operation} (resting : session.Resting)
    (runs : ∀ script, .run script ∉ history) (wait : Wait) :
    ((session.after history).wait wait).delivered = [] :=
  ((resting.after runs).wait wait).1

end BlockPuzzle.Session
