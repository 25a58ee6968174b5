import BlockPuzzle.Attempt.Walk
import BlockPuzzle.Level
import BlockPuzzle.Replay.Basic

/-!
# Sessions

A session plays attempts on one level: it runs a script, replays what the agent did while its clock
goes on, and starts over. Nothing of an attempt is left for the next one.
-/

namespace BlockPuzzle

/-- A level being played. -/
structure Session where
  settings : Settings
  level : Level
  attempt : Attempt
  replay : Replay
  clock : Millis
  lastReport : Option Report

/-- What can go wrong around a session. -/
inductive SessionError where
  | board (error : BoardError)
  | replay (error : StartError)
  | settled (run : String) (standing : Verdict)
  | script (error : ScriptError)
  | settings (error : SettingsError)
  deriving DecidableEq

/-- The words for what went wrong. -/
def SessionError.message : SessionError → String
  | board error => "Grid error: " ++ error.message
  | replay error => "Replay error: " ++ error.message
  | settled run standing => "Run context error: " ++ settledMessage run standing
  | script error => "Script error: " ++ error.message
  | settings error => "Configuration error: " ++ error.message

namespace Session

/-- Opens a session with usable settings. -/
def start (settings : Settings) (level : Level) : Except SettingsError Session :=
  settings.check.map fun _ =>
    { settings, level
      attempt := .fresh level.startPose .empty
      replay := .idle settings.dedupe
      clock := 0
      lastReport := none }

/-- Gives up the current attempt: drops its replay, wipes the marks and puts the agent back. -/
def reset (session : Session) : Session :=
  { session with
    replay := session.replay.cancel
    attempt := .fresh session.level.startPose session.attempt.marks.wipe
    lastReport := none }

/-- Runs a script in a new attempt and starts its replay. -/
def run (session : Session) (script : String) : Except StartError Report × Session :=
  let session := session.reset
  let (report, attempt) := session.attempt.execute session.level.board session.settings script
  let session := { session with attempt }
  let cadence := session.settings.cadence.forVerdict report.verdict
  match session.replay.start session.attempt cadence session.clock with
  | .ok replay => (.ok report, { session with replay, lastReport := some report })
  | .error e => (.error e, session)

/-- The replay at work on the current attempt, with the events delivered before. -/
def performance (session : Session) (delivered : List Event) : Performance :=
  ⟨session.replay, session.attempt, delivered⟩

/-- What an advance leaves: the number of timers that fired, the session, and all events delivered so
far, newest first. -/
structure Advance where
  fired : Nat
  session : Session
  delivered : List Event

/-- Moves the clock on and fires the timers that are due. -/
def advance (session : Session) (elapsed : Millis) (delivered : List Event) : Advance :=
  let clock := session.clock.after elapsed
  let (fired, p) := (session.performance delivered).advance clock
  ⟨fired, { session with clock, replay := p.replay, attempt := p.attempt }, p.delivered⟩

/-- The delay until the next timer is due, if there is one. -/
def nextDeadlineIn? (session : Session) : Option Millis :=
  session.replay.nextDeadline?.map session.clock.delayTo

/-- The work that the replay has left. -/
def work (session : Session) : Nat :=
  (session.performance []).work

/-- The work of a session is that of its performance. -/
theorem work_performance (session : Session) (delivered : List Event) :
    (session.performance delivered).work = session.work := rfl

/-- Advancing a session leaves the work that advancing its performance leaves. -/
theorem work_advance_eq (session : Session) (elapsed : Millis) (delivered : List Event) :
    (session.advance elapsed delivered).session.work =
      ((session.performance delivered).advance (session.clock.after elapsed)).2.work := rfl

/-- Advancing a session does not add to the work. -/
theorem work_advance_le (session : Session) (elapsed : Millis) (delivered : List Event) :
    (session.advance elapsed delivered).session.work ≤ session.work := by
  rw [work_advance_eq]
  exact Performance.work_advance_le _ _

/-- The next deadline is due when the clock has moved on by the delay until then. -/
theorem le_after_delayTo (now deadline : Millis) : deadline ≤ now.after (now.delayTo deadline) := by
  have hdeadline : deadline.toNat < 18446744073709551616 := deadline.toNat_lt
  rw [UInt64.le_iff_toNat_le, Millis.toNat_after, Millis.toNat_delayTo, Millis.toNat_last]
  omega

/-- Waiting for the next timer leaves less work, so that a replay to the end comes to it. -/
theorem work_advance_lt {session : Session} {delay : Millis} (delivered : List Event)
    (h : session.nextDeadlineIn? = some delay) :
    (session.advance delay delivered).session.work < session.work := by
  unfold nextDeadlineIn? at h
  obtain ⟨deadline, hdeadline, rfl⟩ := Option.map_eq_some_iff.1 h
  rw [work_advance_eq, ← work_performance session delivered]
  exact Performance.work_advance_lt hdeadline (le_after_delayTo _ _)

/-- Fires all timers, those that others lead to included; the clock jumps from deadline to
deadline. Counts on from `fired`. -/
def replayToEnd (session : Session) (fired : Nat) (delivered : List Event) : Advance :=
  match _h : session.nextDeadlineIn? with
  | none => ⟨fired, session, delivered⟩
  | some delay =>
    let next := session.advance delay delivered
    next.session.replayToEnd (fired + next.fired) next.delivered
termination_by session.work
decreasing_by exact work_advance_lt delivered _h

/-- How many distinct blocks a script leaves unused, if the level limits them. -/
def remainingCapacity (session : Session) (script : String) : Except ScriptError (Option Int) :=
  (Program.compile script).map fun program => session.level.blocksLeft program.blockIds.length

end Session

end BlockPuzzle
