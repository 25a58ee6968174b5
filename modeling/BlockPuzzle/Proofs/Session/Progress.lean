import BlockPuzzle.Proofs.Attempt.Faithful
import BlockPuzzle.Proofs.Replay.Tally
import BlockPuzzle.Proofs.Session.History

/-!
# Progress of a replay

However a session waits after a run, nothing of the journal is lost or counted twice
(`Session.Accounts`): what the replay has taken and what is left are the journal of the run, counters
and marks tell of exactly what was taken, and what the run reported still stands. Every run begins so
(`Reachable.accounts_run`) and every advance keeps it (`Accounts.advance`), so it holds after any
history whose last run is not followed by a reset: `Session.run_accounts`.
-/

namespace BlockPuzzle.Session

/-- Whether an operation wipes the marks. -/
def Operation.wipes : Operation → Bool
  | run _ => true
  | reset => true
  | wait _ => false

/-- A session accounts for the journal and the report of its last run, after so many wipes. -/
structure Accounts (session : Session) (journal : List Entry) (report : Report) (wipes : Nat) : Prop
    extends Replay.Tally session.settings.dedupe journal session.replay session.attempt where
  sensed : Marks.Exactly session.attempt.marks.sensed (sensing journal)
  logical : session.attempt.logical = report.finalPose
  verdict : session.attempt.verdict = report.verdict
  lastReport : session.lastReport = some report
  wipes : session.attempt.marks.wipes = wipes
  pending : ∀ timer ∈ session.replay.queue, session.clock ≤ timer.deadline

variable {session : Session} {journal : List Entry} {report : Report} {wipes : Nat}

/-! ## Running -/

/-- A run accounts for its journal: nothing has been taken yet. -/
lemma Reachable.accounts_run (reachable : session.Reachable) (script : String) :
    ∃ report, (session.run script).1 = .ok report ∧
      (session.run script).2.Accounts (session.run script).2.attempt.journal.toList report
        (session.attempt.marks.wipes + 1) := by
  obtain ⟨replay, starts, ran⟩ := session.run_eq script
  obtain ⟨verdict, settled⟩ := session.execution_verdict script
  obtain ⟨sensed, animated, wiped⟩ := Attempt.execute_marks session.level.board
    session.level.startPose session.attempt.marks session.settings script
  rw [Replay.start_of_idle rfl (verdict ▸ settled)] at starts
  cases starts
  have unmarked : Marks.Exactly (session.execution script).2.marks.animated [] :=
    animated.symm ▸ .nil
  refine ⟨_, congrArg Prod.fst ran, ?_⟩
  rw [ran]
  exact {
    rule := reachable.dedupe
    left := rfl
    taken_le := Nat.zero_le _
    sum := rfl
    animated := (ite_self 0).symm
    marked := unmarked
    sensed
    logical := Attempt.execute_finalPose ..
    verdict
    lastReport := rfl
    wipes := wiped
    pending := by
      intro timer mem
      obtain rfl := List.mem_singleton.1 mem
      exact Millis.le_after _ _ }

/-! ## Waiting -/

/-- An advance accounts for the same run. -/
lemma Accounts.advance (accounts : session.Accounts journal report wipes)
    (steady : session.replay.Steady) (elapsed : Millis) (delivered : List Event) :
    (session.advance elapsed delivered).session.Accounts journal report wipes := by
  have advanced := Replay.Tally.advance (p := session.performance delivered) accounts.toTally
    (session.clock.after elapsed)
  have spared :=
    Performance.spared_advance (session.clock.after elapsed) (session.performance delivered)
  have late := Performance.late_advance (p := session.performance delivered)
    (session.clock.after elapsed) steady
  exact {
    toTally := advanced
    sensed := spared.sensed.symm ▸ accounts.sensed
    logical := spared.logical.trans accounts.logical
    verdict := spared.verdict.trans accounts.verdict
    lastReport := accounts.lastReport
    wipes := spared.wipes.trans accounts.wipes
    pending := fun timer mem => UInt64.le_of_lt (late timer mem) }

/-- So does any waiting. -/
lemma Accounts.wait (accounts : session.Accounts journal report wipes)
    (reachable : session.replay.Reachable) (wait : Wait) :
    (session.wait wait).session.Accounts journal report wipes := by
  cases wait with
  | advance elapsed => exact accounts.advance reachable.steady elapsed []
  | replayToEnd =>
    have kept : (session.replayToEnd 0 []).session.replay.Reachable ∧
        (session.replayToEnd 0 []).session.Accounts journal report wipes := by
      -- each advance needs a steady replay, so this is kept along with the account
      refine replayToEnd_keeps (P := fun later _ =>
        later.replay.Reachable ∧ later.Accounts journal report wipes) ?_ 0 ⟨reachable, accounts⟩
      intro later delivered elapsed ⟨reachable, accounts⟩
      exact ⟨.advance _ _ delivered reachable, accounts.advance reachable.steady elapsed delivered⟩
    exact kept.2

/-- A session still accounts for its last run after any waits. -/
lemma Accounts.waits (accounts : session.Accounts journal report wipes)
    (reachable : session.Reachable) (waits : List Wait) :
    (session.after (waits.map .wait)).Accounts journal report wipes := by
  induction waits generalizing session with
  | nil => exact accounts
  | cons wait waits ih =>
    exact ih (accounts.wait reachable.replay wait) (reachable.perform (.wait wait))

/-! ## Wipes -/

/-- Runs and resets wipe the marks once, and waiting does not. -/
lemma wipes_perform (session : Session) (operation : Operation) :
    (session.perform operation).attempt.marks.wipes =
      session.attempt.marks.wipes + if operation.wipes then 1 else 0 := by
  cases operation with
  | run script =>
    obtain ⟨replay, -, ran⟩ := session.run_eq script
    obtain ⟨-, -, wiped⟩ := Attempt.execute_marks session.level.board session.level.startPose
      session.attempt.marks session.settings script
    rw [perform, ran]
    exact wiped
  | reset => rfl
  | wait wait =>
    cases wait with
    | advance elapsed => exact (Performance.spared_advance _ _).wipes
    | replayToEnd =>
      refine replayToEnd_keeps (P := fun later _ =>
        later.attempt.marks.wipes = session.attempt.marks.wipes) ?_ 0 rfl
      intro later delivered elapsed same
      exact (Performance.spared_advance _ _).wipes.trans same

/-- The marks have been wiped as often as a history says. -/
lemma wipes_after (session : Session) (history : List Operation) :
    (session.after history).attempt.marks.wipes =
      session.attempt.marks.wipes + history.countP Operation.wipes := by
  induction history generalizing session with
  | nil => rfl
  | cons operation history ih =>
    have later := ih (session.perform operation)
    rw [session.wipes_perform] at later
    rw [List.countP_cons, after, List.foldl_cons]
    refine later.trans ?_
    omega

/-! ## Histories -/

/-- However a session is used and one waits after its last run, it accounts for the journal and the
report of that run, and its marks have been wiped by every run and every reset since it was opened. -/
theorem run_accounts {settings : Settings} {level : Level} {new : Session}
    (opened : Session.start settings level = .ok new) (earlier : List Operation) (script : String)
    (waits : List Wait) :
    let history := earlier ++ .run script :: waits.map .wait
    let ran := (new.after earlier).run script
    ∃ report, ran.1 = .ok report ∧
      (new.after history).Accounts ran.2.attempt.journal.toList report
        (history.countP Operation.wipes) := by
  intro history ran
  have reachable := (Reachable.start opened).after earlier
  obtain ⟨report, reports, accounts⟩ := reachable.accounts_run script
  have waited := accounts.waits (reachable.perform (.run script)) waits
  have parts : new.after history = ran.2.after (waits.map .wait) := List.foldl_append
  have unwiped : new.attempt.marks.wipes = 0 := by
    rw [start_inv opened]
    rfl
  -- the waits behind the run wipe nothing, so the whole history counts what came before, and the run
  have count : history.countP Operation.wipes = (new.after earlier).attempt.marks.wipes + 1 := by
    rw [← waited.wipes, ← Nat.zero_add (history.countP _), ← unwiped, ← new.wipes_after, parts]
  refine ⟨report, reports, ?_⟩
  rw [parts, count]
  exact waited

/-- The corridor that is reset, run and left alone until a step has been shown. -/
theorem run_accounts_corridor :
    Session.start .default corridor.level = .ok corridor ∧
      ∃ report, (corridor.reset.run "(move-forward a)").1 = .ok report ∧
        (corridor.after [.reset, .run "(move-forward a)", .wait (.advance 150)]).Accounts
          (corridor.reset.run "(move-forward a)").2.attempt.journal.toList report 2 := by
  have opened : Session.start .default corridor.level = .ok corridor := rfl
  exact ⟨opened, run_accounts opened [.reset] "(move-forward a)" [.advance 150]⟩

end BlockPuzzle.Session
