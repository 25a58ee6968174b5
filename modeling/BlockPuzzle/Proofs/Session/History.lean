import BlockPuzzle.Proofs.Session.Replay

/-!
# Histories of a session

A session that has been opened is used by operations: scripts are run, it is reset, and one waits
for its replay. Any history of them leads to a session that can be reached, on the same level and
with the same settings. `Session.View` is all that a session shows, and `Session.watch` what one
sees while waiting.
-/

namespace BlockPuzzle.Session

/-- What one can do while a replay goes on. -/
inductive Wait where
  | advance (elapsed : Millis)
  | replayToEnd

/-- What one can do with a session. -/
inductive Operation where
  | run (script : String)
  | reset
  | wait (wait : Wait)

/-- Waits, and lists what is delivered meanwhile. -/
def wait (session : Session) : Wait → Advance
  | .advance elapsed => session.advance elapsed []
  | .replayToEnd => session.replayToEnd 0 []

/-- The session after an operation. -/
def perform (session : Session) : Operation → Session
  | .run script => (session.run script).2
  | .reset => session.reset
  | .wait wait => (session.wait wait).session

/-- The session after a history of operations, oldest first. -/
def after (session : Session) (history : List Operation) : Session :=
  history.foldl perform session

/-- All that a session shows of itself, but for how often its marks were wiped. -/
structure View where
  journal : List Entry
  sensed : List BlockId
  animated : List BlockId
  logical : Pose
  display : Pose
  verdict : Verdict
  stage : Stage
  taken : Nat
  shown : Nat
  skipped : Nat
  pending : Nat
  nextDeadline : Option Millis
  clock : Millis
  lastReport : Option Report

/-- What can be seen of a session. -/
def view (session : Session) : View where
  journal := session.attempt.journal.toList
  sensed := session.attempt.marks.sensed
  animated := session.attempt.marks.animated
  logical := session.attempt.logical
  display := session.attempt.display
  verdict := session.attempt.verdict
  stage := session.replay.stage
  taken := session.replay.taken
  shown := session.replay.animated
  skipped := session.replay.skipped
  pending := session.replay.pending
  nextDeadline := session.replay.nextDeadline?
  clock := session.clock
  lastReport := session.lastReport

/-- What one sees while waiting: for each wait the number of timers that fired, the events that were
delivered, oldest first, and the session afterwards. -/
def watch (session : Session) : List Wait → List (Nat × List Event × View)
  | [] => []
  | wait :: waits =>
    let result := session.wait wait
    (result.fired, result.delivered.reverse, result.session.view) :: result.session.watch waits

/-! ## What no history changes -/

variable {session : Session}

/-- Every operation leads from a session that can be reached to another one. -/
lemma Reachable.perform (reachable : session.Reachable) (operation : Operation) :
    (session.perform operation).Reachable := by
  cases operation with
  | run script => exact .run script reachable
  | reset => exact .reset reachable
  | wait wait =>
    cases wait with
    | advance elapsed => exact .advance elapsed [] reachable
    | replayToEnd => exact .replayToEnd 0 [] reachable

/-- A session is reachable after any history. -/
lemma Reachable.after (reachable : session.Reachable) (history : List Operation) :
    (session.after history).Reachable := by
  induction history generalizing session with
  | nil => exact reachable
  | cons operation history ih => exact ih (reachable.perform operation)

/-- An operation changes neither the settings nor the level. -/
lemma perform_spares (session : Session) (operation : Operation) :
    (session.perform operation).settings = session.settings ∧
      (session.perform operation).level = session.level := by
  cases operation with
  | run script =>
    obtain ⟨replay, -, ran⟩ := session.run_eq script
    rw [perform, ran]
    exact ⟨rfl, rfl⟩
  | reset => exact ⟨rfl, rfl⟩
  | wait wait =>
    cases wait with
    | advance elapsed => exact ⟨rfl, rfl⟩
    | replayToEnd =>
      exact replayToEnd_keeps (P := fun ended _ =>
        ended.settings = session.settings ∧ ended.level = session.level) (fun _ kept => kept) 0
        ⟨rfl, rfl⟩

/-- Nor does a history. -/
lemma after_spares (session : Session) (history : List Operation) :
    (session.after history).settings = session.settings ∧
      (session.after history).level = session.level := by
  induction history generalizing session with
  | nil => exact ⟨rfl, rfl⟩
  | cons operation history ih =>
    obtain ⟨settings, level⟩ := ih (session.perform operation)
    obtain ⟨settings', level'⟩ := session.perform_spares operation
    exact ⟨settings.trans settings', level.trans level'⟩

end BlockPuzzle.Session
