import BlockPuzzle.Proofs.Attempt.Outcome
import BlockPuzzle.Proofs.Attempt.Trail
import BlockPuzzle.Proofs.Replay.Timeline
import BlockPuzzle.Session

/-!
# Runs of a session

Whatever happened in a session before, a run is the execution of a script in a fresh attempt, and
its replay starts. `Session.calls` lists the calls of the board that it makes.
`Session.run_followsTrail` says that on a board that was built the agent keeps to the trail, and
that success, standing on FINISH and having made all steps of the trail are one and the same.
-/

namespace BlockPuzzle

/-- An execution settles an attempt, as it reports. -/
lemma Attempt.execute_verdict {attempt : Attempt} {board : Board} {settings : Settings}
    {script : String} (unset : attempt.verdict = .unset) :
    (attempt.execute board settings script).2.verdict =
        (attempt.execute board settings script).1.verdict ∧
      (attempt.execute board settings script).1.verdict ≠ .unset := by
  obtain ⟨walk, report, executed, verdict, -⟩ :=
    execute_keeps ((Walk.host board settings.senseRule).noting_linked (Walk.start attempt)) script
      unset .nil
  rw [executed, verdict]
  exact ⟨rfl, classify_ne_unset _ _ _⟩

namespace Session

/-- The report of the run of a script, and the attempt that it leaves. -/
def execution (session : Session) (script : String) : Report × Attempt :=
  session.reset.attempt.execute session.level.board session.settings script

/-- The calls of the board that the run of a script makes, oldest first. -/
def calls (session : Session) (script : String) : List (Call Walk) :=
  session.reset.attempt.calls session.level.board session.settings script

/-- An execution settles its attempt, and reports the same verdict. -/
lemma execution_verdict (session : Session) (script : String) :
    (session.execution script).2.verdict = (session.execution script).1.verdict ∧
      (session.execution script).1.verdict ≠ .unset :=
  Attempt.execute_verdict rfl

/-- Every run executes its script and starts a replay of the attempt. -/
lemma run_eq (session : Session) (script : String) :
    ∃ replay, session.replay.cancel.start (session.execution script).2
        (session.settings.cadence.forVerdict (session.execution script).1.verdict) session.clock =
        .ok replay ∧
      session.run script = (.ok (session.execution script).1,
        { session with
          attempt := (session.execution script).2
          replay
          lastReport := some (session.execution script).1 }) := by
  obtain ⟨same, settled⟩ := session.execution_verdict script
  have starts := Replay.start_of_idle (rfl : session.replay.cancel.stage = .idle) (same ▸ settled)
    (session.settings.cadence.forVerdict (session.execution script).1.verdict) session.clock
  refine ⟨_, starts, ?_⟩
  unfold run
  simp only
  split
  · next replay started =>
    cases starts.symm.trans started
    rfl
  · next e failed => cases starts.symm.trans failed

/-- A script that compiles is walked to one of the three outcomes, by which it is judged. -/
lemma run_of_compile (session : Session) {script : String} {program : Program}
    (compiles : Program.compile script = .ok program) :
    ∃ report walk, (session.run script).1 = .ok report ∧
      (session.run script).2.attempt = { walk.attempt with verdict := report.verdict } ∧
      report.verdict =
        report.ending.classify walk.attempt.logical.position session.level.board.finish ∧
      Walk.Outcome (Walk.host session.level.board session.settings.senseRule)
        session.settings.tickBudget.toNat
        (Machine.load program session.settings.maxCallDepth.toNat)
        (Walk.start session.reset.attempt) report.ending report.ticks walk := by
  obtain ⟨replay, -, ran⟩ := session.run_eq script
  obtain ⟨report, walk, executed, fits, -, outcome⟩ :=
    @Attempt.execute_of_compile session.reset.attempt session.level.board session.settings _ _
      compiles rfl
  have executed : session.execution script = _ := executed
  rw [ran, executed]
  exact ⟨report, walk, rfl, rfl, fits, outcome⟩

/-- The calls lead from the fresh attempt to the one that the run leaves. -/
lemma run_linked (session : Session) (script : String) :
    ∃ walk, Linked (Walk.start session.reset.attempt) (session.calls script) walk ∧
      (session.run script).2.attempt =
        { walk.attempt with verdict := (session.run script).2.attempt.verdict } := by
  obtain ⟨replay, -, ran⟩ := session.run_eq script
  obtain ⟨walk, report, executed, -, -, linked, -⟩ := Attempt.execute_keeps
    ((Walk.host session.level.board session.settings.senseRule).noting_linked
      (Walk.start session.reset.attempt)) script rfl .nil
  refine ⟨walk, linked, ?_⟩
  rw [ran]
  unfold execution
  rw [executed]

/-- On a board that was built the agent keeps to the trail. -/
theorem run_followsTrail {map : List (List Tile)} {table : List (List (Option Bearing))}
    (session : Session) (script : String)
    (built : Board.ofRows map table = .ok session.level.board) :
    ∃ report, (session.run script).1 = .ok report ∧
      Attempt.FollowsTrail session.level.board session.reset.attempt (session.calls script) report
        (session.run script).2.attempt := by
  have accepted := Board.accepted_of_ofRows built
  obtain ⟨replay, -, ran⟩ := session.run_eq script
  rw [ran]
  exact ⟨_, rfl,
    Attempt.execute_followsTrail accepted.route_trail accepted.start_ne_finish rfl rfl rfl⟩

/-- The corridor with START at one end and FINISH at the other. -/
def corridor : Session where
  settings := .default
  level := .ofBoard "corridor" ⟨2, 1, #[.start, .finish], #[some .east, none], ⟨0, 0⟩, ⟨1, 0⟩⟩ .east
  attempt := .fresh ⟨⟨0, 0⟩, .east⟩ .empty
  replay := .idle true
  clock := 0
  lastReport := none

/-- A board that was built, with a script that walks its trail. -/
theorem run_followsTrail_corridor :
    Board.ofRows [[.start, .finish]] [[some .east, none]] = .ok corridor.level.board ∧
    ∃ report, (corridor.run "(move-forward a)").1 = .ok report ∧
      Attempt.FollowsTrail corridor.level.board corridor.reset.attempt
        (corridor.calls "(move-forward a)") report (corridor.run "(move-forward a)").2.attempt := by
  have built : Board.ofRows [[.start, .finish]] [[some .east, none]] =
      .ok corridor.level.board := by
    with_unfolding_all rfl
  exact ⟨built, run_followsTrail corridor _ built⟩

end Session

end BlockPuzzle
