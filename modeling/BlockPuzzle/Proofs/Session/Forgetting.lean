import BlockPuzzle.Proofs.Replay.Ahead
import BlockPuzzle.Proofs.Session.History

/-!
# Forgetting

A run leaves nothing to the next one. Whatever happened in a session, running a script in it shows
what running it in a new session at the same time shows, and so does any waiting afterwards:
`Session.run_forgets`. The two sessions differ in hidden counts only, by which the older one is
ahead (`Session.run_ahead`).
-/

namespace BlockPuzzle.Session

/-- A session whose hidden counts are further on. -/
def ahead (session : Session) (lead : Lead) : Session :=
  { session with replay := session.replay.ahead lead, attempt := session.attempt.ahead lead }

/-- An advance that leaves such a session. -/
def Advance.ahead (result : Advance) (lead : Lead) : Advance :=
  { result with session := result.session.ahead lead }

variable (session : Session) (lead : Lead)

/-- The counts are hidden. -/
lemma view_ahead : (session.ahead lead).view = session.view := by
  have pending : (session.ahead lead).replay.pending = session.replay.pending :=
    List.length_map _
  have next : (session.ahead lead).replay.nextDeadline? = session.replay.nextDeadline? := by
    cases queue : session.replay.queue with
    | nil => simp [Replay.nextDeadline?, ahead, Replay.ahead, queue]
    | cons => simp [Replay.nextDeadline?, ahead, Replay.ahead, queue, Timer.ahead]
  unfold view
  rw [pending, next]
  rfl

/-! ## Waiting -/

/-- The next timer is as far away as it would be. -/
lemma nextDeadlineIn?_ahead : (session.ahead lead).nextDeadlineIn? = session.nextDeadlineIn? := by
  have next := congrArg View.nextDeadline (session.view_ahead lead)
  exact congrArg (Option.map session.clock.delayTo) next

/-- An advance keeps a session as far ahead as it was. -/
lemma advance_ahead (elapsed : Millis) (delivered : List Event) :
    (session.ahead lead).advance elapsed delivered =
      (session.advance elapsed delivered).ahead lead := by
  have advanced := (session.performance delivered).advance_ahead lead (session.clock.after elapsed)
  have same : (session.ahead lead).performance delivered =
      (session.performance delivered).ahead lead := rfl
  have clock : (session.ahead lead).clock = session.clock := rfl
  simp only [advance_eq, same, clock, advanced]
  rfl

/-- So does a replay to its end. -/
lemma replayToEnd_ahead (fired : Nat) (delivered : List Event) :
    (session.ahead lead).replayToEnd fired delivered =
      (session.replayToEnd fired delivered).ahead lead := by
  have next := session.nextDeadlineIn?_ahead lead
  fun_induction replayToEnd session fired delivered with
  | case1 session fired delivered none => exact replayToEnd_of_none (next.trans none) ..
  | case2 session fired delivered delay some advanced ih =>
    rw [replayToEnd_of_some (next.trans some), advance_ahead]
    exact ih (advanced.session.nextDeadlineIn?_ahead lead)

/-- The lead remains while one waits. -/
lemma wait_ahead (wait : Wait) :
    (session.ahead lead).wait wait = (session.wait wait).ahead lead := by
  cases wait with
  | advance elapsed => exact session.advance_ahead lead elapsed []
  | replayToEnd => exact session.replayToEnd_ahead lead 0 []

/-- Waiting shows the same, however far ahead a session is. -/
lemma watch_ahead (waits : List Wait) : (session.ahead lead).watch waits = session.watch waits := by
  induction waits generalizing session with
  | nil => rfl
  | cons wait waits ih =>
    have next := session.wait_ahead lead wait
    have shown := view_ahead (session.wait wait).session lead
    have later := ih (session.wait wait).session
    simp only [watch, next, Advance.ahead, shown, later]

/-! ## Running -/

/-- The hidden counts of a session, by which it is ahead of one that has just been opened. -/
def counts (session : Session) : Lead where
  serials := session.replay.nextSerial
  generations := session.replay.generation
  wipes := session.attempt.marks.wipes

/-- Nothing has been done in a session, but its clock may have gone on. -/
structure New (session : Session) : Prop where
  attempt : session.attempt = .fresh session.level.startPose .empty
  replay : session.replay = .idle session.settings.dedupe

variable {session} {used new : Session}

/-- A run of a session that was used is ahead of that of a new one, with its hidden counts only. -/
theorem run_ahead (untouched : new.New) (settings : used.settings = new.settings)
    (level : used.level = new.level) (clock : used.clock = new.clock)
    (dedupe : used.replay.dedupe = used.settings.dedupe) (script : String) :
    used.run script = ((new.run script).1, (new.run script).2.ahead used.counts) := by
  have attempt : used.reset.attempt = new.reset.attempt.ahead used.counts := by
    have wipes := Nat.add_comm used.attempt.marks.wipes 1
    simp only [reset, untouched.attempt, level, Attempt.fresh, Attempt.ahead, Marks.wipe,
      Marks.ahead, Marks.empty, counts, Nat.zero_add, wipes]
  have execution : used.execution script =
      ((new.execution script).1, (new.execution script).2.ahead used.counts) := by
    unfold execution
    rw [attempt, settings, level, Attempt.execute_ahead]
  obtain ⟨replay, starts, ran⟩ := used.run_eq script
  obtain ⟨replay', starts', ran'⟩ := new.run_eq script
  have ahead : replay = replay'.ahead used.counts := by
    obtain ⟨-, settled⟩ := Replay.start_inv starts
    obtain ⟨-, settled'⟩ := Replay.start_inv starts'
    have generation := Nat.add_comm used.replay.generation 1
    rw [Replay.start_of_idle rfl settled] at starts
    rw [Replay.start_of_idle rfl settled'] at starts'
    cases starts
    cases starts'
    simp only [Replay.cancel, Replay.ahead, enqueue, untouched.replay, Replay.idle, counts, dedupe,
      settings, clock, execution, List.map_cons, List.map_nil, Timer.ahead, Nat.zero_add, generation,
      Nat.add_comm used.replay.nextSerial]
  rw [ran, ran', execution, ahead, settings, level, clock]
  rfl

/-- A session that has been opened is new, whatever time one lets pass. -/
lemma new_of_start {settings : Settings} {level : Level}
    (opened : Session.start settings level = .ok new) (time : Millis) :
    (new.advance time []).session.New ∧ (new.advance time []).session.clock = time ∧
      (new.advance time []).session.settings = new.settings ∧
      (new.advance time []).session.level = new.level := by
  rw [start_inv opened, advance_early Stage.noConfusion (by simp [Replay.nextDeadline?, Replay.idle])]
  exact ⟨⟨rfl, rfl⟩, time.zero_after, rfl, rfl⟩

/-- Whatever was done in a session, running a script in it gives the report and shows what a new
session does in which as much time has passed, and so does any waiting afterwards. -/
theorem run_forgets {settings : Settings} {level : Level}
    (opened : Session.start settings level = .ok new) (history : List Operation) (script : String)
    (waits : List Wait) :
    let used := new.after history
    let unused := (new.advance used.clock []).session
    unused.clock = used.clock ∧
      (used.run script).1 = (unused.run script).1 ∧
      (used.run script).2.view = (unused.run script).2.view ∧
      (used.run script).2.watch waits = (unused.run script).2.watch waits := by
  intro used unused
  obtain ⟨untouched, clock, settings, level⟩ := new_of_start opened used.clock
  obtain ⟨settings', level'⟩ := new.after_spares history
  have dedupe := ((Reachable.start opened).after history).dedupe
  have ahead := run_ahead untouched (settings'.trans settings.symm) (level'.trans level.symm)
    clock.symm dedupe script
  rw [ahead]
  exact ⟨clock, rfl, view_ahead _ _, watch_ahead _ _ waits⟩

/-- A session in which a replay was broken off by a reset, and one that was only opened. -/
theorem run_forgets_corridor :
    Session.start .default corridor.level = .ok corridor ∧
      let used := corridor.after [.run "(finish b)", .wait (.advance 150), .reset]
      let unused := (corridor.advance used.clock []).session
      (used.run "(move-forward a)").1 = (unused.run "(move-forward a)").1 ∧
        (used.run "(move-forward a)").2.view = (unused.run "(move-forward a)").2.view ∧
        (used.run "(move-forward a)").2.watch [.advance 100, .replayToEnd] =
          (unused.run "(move-forward a)").2.watch [.advance 100, .replayToEnd] := by
  have opened : Session.start .default corridor.level = .ok corridor := rfl
  obtain ⟨-, same⟩ := run_forgets opened
    [.run "(finish b)", .wait (.advance 150), .reset] "(move-forward a)" [.advance 100, .replayToEnd]
  exact ⟨opened, same⟩

end BlockPuzzle.Session
