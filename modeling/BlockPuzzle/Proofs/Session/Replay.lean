import BlockPuzzle.Proofs.Replay.Showing
import BlockPuzzle.Proofs.Session.Run

/-!
# Replays of a session

However a session waits after a run, its replay shows what the run did once it is drained, and
waiting to the end drains it: `Session.replay_shows_run`. Without the rule that blocks are shown
only once, each recorded action is shown where the agent was right after it.
-/

namespace BlockPuzzle.Session

/-! ## Sessions that have been opened -/

/-- The sessions that a program can come to. -/
inductive Reachable : Session → Prop where
  | start {settings level session} :
    Session.start settings level = .ok session →
    Reachable session
  | run {session} (script : String) :
    Reachable session →
    Reachable (session.run script).2
  | reset {session} :
    Reachable session →
    Reachable session.reset
  | advance {session} (elapsed : Millis) (delivered : List Event) :
    Reachable session →
    Reachable (session.advance elapsed delivered).session
  | replayToEnd {session} (fired : Nat) (delivered : List Event) :
    Reachable session →
    Reachable (session.replayToEnd fired delivered).session

/-- The corridor is reachable, for it has just been opened. -/
lemma corridor_reachable : corridor.Reachable :=
  .start (show Session.start .default corridor.level = .ok corridor from rfl)

/-- Waiting, for some time or to the end of the replay, and as often as one likes; the events that
have been delivered are listed newest first. -/
inductive Waits : Session → List Event → Session → List Event → Prop where
  | refl {session delivered} :
    Waits session delivered session delivered
  | advance {session delivered session' delivered'} (elapsed : Millis) :
    Waits (session.advance elapsed delivered).session (session.advance elapsed delivered).delivered
      session' delivered' →
    Waits session delivered session' delivered'
  | replayToEnd {session delivered session' delivered'} (fired : Nat) :
    Waits (session.replayToEnd fired delivered).session
      (session.replayToEnd fired delivered).delivered session' delivered' →
    Waits session delivered session' delivered'

/-! ## Waiting -/

variable {session ended : Session} {delivered delivered' : List Event}

/-- An advance is one of the replay, to what the clock shows then. -/
lemma advance_eq (session : Session) (elapsed : Millis) (delivered : List Event) :
    session.advance elapsed delivered =
      let clock := session.clock.after elapsed
      let result := (session.performance delivered).advance clock
      ⟨result.1, { session with clock, replay := result.2.replay, attempt := result.2.attempt },
        result.2.delivered⟩ := rfl

/-- An advance to an instant before all deadlines only moves the clock. -/
lemma advance_early {elapsed : Millis} (still : session.replay.stage ≠ .animating)
    (early : ∀ deadline, session.replay.nextDeadline? = some deadline →
      ¬ deadline ≤ session.clock.after elapsed) (delivered : List Event) :
    session.advance elapsed delivered =
      ⟨0, { session with clock := session.clock.after elapsed }, delivered⟩ := by
  have waits := Performance.advance_early (p := session.performance delivered) still early
  simp only [advance_eq, waits]
  rfl

/-- A replay with no timers has come to its end. -/
lemma replayToEnd_of_none (none : session.nextDeadlineIn? = none) (fired : Nat)
    (delivered : List Event) :
    session.replayToEnd fired delivered = ⟨fired, session, delivered⟩ := by
  rw [replayToEnd.eq_def]
  split
  · rfl
  · next some => cases none.symm.trans some

/-- Any other one goes on with an advance to the next deadline. -/
lemma replayToEnd_of_some {delay : Millis} (some : session.nextDeadlineIn? = some delay)
    (fired : Nat) (delivered : List Event) :
    session.replayToEnd fired delivered =
      (session.advance delay delivered).session.replayToEnd
        (fired + (session.advance delay delivered).fired)
        (session.advance delay delivered).delivered := by
  rw [replayToEnd.eq_def]
  split
  · next none => cases some.symm.trans none
  · next some' =>
    cases some.symm.trans some'
    rfl

/-- What every advance keeps holds at the end of a replay. -/
lemma replayToEnd_keeps {P : Session → List Event → Prop}
    (step : ∀ {session delivered} elapsed, P session delivered →
      P (session.advance elapsed delivered).session (session.advance elapsed delivered).delivered)
    (fired : Nat) (start : P session delivered) :
    P (session.replayToEnd fired delivered).session
      (session.replayToEnd fired delivered).delivered := by
  fun_induction replayToEnd session fired delivered with
  | case1 => exact start
  | case2 session fired delivered delay _ _ ih => exact ih (step delay start)

/-- A session without a next timer has no timers. -/
lemma queue_of_none (none : session.nextDeadlineIn? = none) : session.replay.queue = [] := by
  simpa [nextDeadlineIn?, Replay.nextDeadline?] using none

/-- Nor has one that was replayed to the end. -/
lemma queue_replayToEnd (session : Session) (fired : Nat) (delivered : List Event) :
    (session.replayToEnd fired delivered).session.replay.queue = [] := by
  fun_induction replayToEnd session fired delivered with
  | case1 session fired delivered none => exact queue_of_none none
  | case2 session fired delivered delay _ _ ih => exact ih

/-- What every advance keeps holds after any waiting. -/
lemma Waits.keeps {P : Session → List Event → Prop}
    (step : ∀ {session delivered} elapsed, P session delivered →
      P (session.advance elapsed delivered).session (session.advance elapsed delivered).delivered)
    (waits : Waits session delivered ended delivered') (start : P session delivered) :
    P ended delivered' := by
  induction waits with
  | refl => exact start
  | advance elapsed _ ih => exact ih (step elapsed start)
  | replayToEnd fired _ ih => exact ih (replayToEnd_keeps step fired start)

/-- A session begins with a fresh attempt and an idle replay, at time 0. -/
lemma start_inv {settings : Settings} {level : Level}
    (started : Session.start settings level = .ok session) :
    session = ⟨settings, level, .fresh level.startPose .empty, .idle settings.dedupe, 0, none⟩ := by
  unfold Session.start at started
  cases checked : settings.check with
  | error e =>
    rw [checked] at started
    cases started
  | ok =>
    rw [checked] at started
    cases started
    rfl

/-- The replay of a session follows the rule for blocks that the settings give. -/
lemma Reachable.dedupe (reachable : session.Reachable) :
    session.replay.dedupe = session.settings.dedupe := by
  induction reachable with
  | start started =>
    rw [start_inv started]
    rfl
  | @run session script _ ih =>
    obtain ⟨replay, starts, ran⟩ := session.run_eq script
    obtain ⟨_, -, -, -, dedupe⟩ := Replay.poised_of_start rfl starts []
    rw [ran]
    exact dedupe.trans ih
  | reset _ ih => exact ih
  | advance elapsed delivered _ ih => exact (Performance.spared_advance _ _).dedupe.trans ih
  | replayToEnd fired delivered _ ih =>
    refine replayToEnd_keeps (P := fun session _ => session.replay.dedupe = session.settings.dedupe)
      ?_ fired ih
    intro session delivered elapsed same
    exact (Performance.spared_advance _ _).dedupe.trans same

/-- The replay of a session that can be reached is one that can be reached itself. -/
lemma Reachable.replay (reachable : session.Reachable) : session.replay.Reachable := by
  induction reachable with
  | start started =>
    rw [start_inv started]
    exact .idle _
  | @run session script _ ih =>
    obtain ⟨replay, starts, ran⟩ := session.run_eq script
    rw [ran]
    exact .start (.cancel ih) starts
  | reset _ ih => exact .cancel ih
  | advance elapsed delivered _ ih => exact .advance _ _ delivered ih
  | replayToEnd fired delivered _ ih =>
    exact replayToEnd_keeps (P := fun session _ => session.replay.Reachable)
      (fun _ reachable => .advance _ _ _ reachable) fired ih

/-! ## What is shown -/

/-- What is left of a replay follows what has been delivered. -/
def Plays (ending : Performance) (events : List Event) (session : Session)
    (delivered : List Event) : Prop :=
  ∃ beats, Performance.Plays (session.performance delivered) beats ending ∧
    delivered.reverse ++ beats.flatMap Beat.events = events

/-- An advance goes on with a replay. -/
lemma Plays.advance {ending : Performance} {events : List Event} (elapsed : Millis)
    (plays : Plays ending events session delivered) :
    Plays ending events (session.advance elapsed delivered).session
      (session.advance elapsed delivered).delivered := by
  obtain ⟨beats, plays, parts⟩ := plays
  obtain ⟨beats', plays', parts'⟩ := plays.advance (session.clock.after elapsed)
  exact ⟨beats', plays', parts'.trans parts⟩

/-- The entries of the journal of a run that its replay shows. -/
def shownEntries (session : Session) (script : String) : List Entry :=
  (Performance.presented session.settings.dedupe []
    (session.run script).2.attempt.journal.toList).filterMap id

/-- All entries are shown, or those whose block does not occur earlier. -/
lemma shownEntries_eq (session : Session) (script : String) :
    session.shownEntries script =
      if session.settings.dedupe then firstOfBlock (session.run script).2.attempt.journal.toList
      else (session.run script).2.attempt.journal.toList := by
  unfold shownEntries
  cases session.settings.dedupe with
  | true => exact Performance.presented_firstOfBlock _
  | false => exact Performance.presented_all _ _

/-- The calls of a run record its journal, and lead the agent where it does; what is shown is still
the start, and no block has been shown. -/
lemma run_recordings (session : Session) (script : String) :
    recordings (session.calls script) =
        traced session.level.startPose (session.run script).2.attempt.journal.toList ∧
      (session.run script).2.attempt.logical =
        carryOut session.level.startPose (session.run script).2.attempt.journal.toList ∧
      (session.run script).2.attempt.display = session.level.startPose ∧
      (session.run script).2.attempt.marks.animated = [] := by
  obtain ⟨replay, -, ran⟩ := session.run_eq script
  rw [ran]
  exact session.reset.attempt.execute_recordings session.level.board session.settings script rfl rfl

/-- The replay of a run is about to show its entries and the end. -/
lemma run_plays (reachable : session.Reachable) (script : String) :
    ∃ q, Plays q
        ((traced session.level.startPose (session.shownEntries script)).flatMap showEntry ++
          showEnd (session.run script).2.attempt.verdict
            (carryOut session.level.startPose (session.shownEntries script)))
        (session.run script).2 [] ∧
      q.attempt.display = carryOut session.level.startPose (session.shownEntries script) ∧
      q.attempt.logical = (session.run script).2.attempt.logical := by
  obtain ⟨replay, starts, ran⟩ := session.run_eq script
  obtain ⟨q, plays, display⟩ := Replay.plays_of_start rfl starts []
  obtain ⟨-, -, shown, animated⟩ := session.run_recordings script
  have dedupe : session.replay.cancel.dedupe = session.settings.dedupe := reachable.dedupe
  have events := Performance.flatMap_timeline session.settings.dedupe
    (session.settings.cadence.forVerdict (session.execution script).1.verdict) session.clock
    (session.run script).2.attempt
  rw [shown, animated] at events
  rw [dedupe] at plays
  rw [dedupe, Performance.lastPose_eq] at display
  unfold shownEntries
  rw [ran] at shown animated events ⊢
  rw [shown, animated] at display
  exact ⟨q, ⟨_, plays, events⟩, display, plays.spared.logical⟩

/-- The events that are shown of a run, oldest first, and the session when they have been. -/
structure ShowsRun (session : Session) (script : String) (ended : Session) (events : List Event) :
    Prop where
  linked : ∃ walk, Linked (Walk.start session.reset.attempt) (session.calls script) walk ∧
    (session.run script).2.attempt =
      { walk.attempt with verdict := (session.run script).2.attempt.verdict }
  journal : (recordings (session.calls script)).map Prod.fst =
    (session.run script).2.attempt.journal.toList
  logical : ended.attempt.logical = (session.run script).2.attempt.logical
  all : session.settings.dedupe = false →
    events = (recordings (session.calls script)).flatMap showEntry ++
        showEnd (session.run script).2.attempt.verdict (session.run script).2.attempt.logical ∧
      ended.attempt.display = ended.attempt.logical
  once : session.settings.dedupe = true →
    events = (traced session.level.startPose
        (firstOfBlock (session.run script).2.attempt.journal.toList)).flatMap showEntry ++
      showEnd (session.run script).2.attempt.verdict (carryOut session.level.startPose
        (firstOfBlock (session.run script).2.attempt.journal.toList))

/-- Waiting to the end drains the replay of a run, and however one waits, the replay has shown the
run when it is drained. -/
theorem replay_shows_run (reachable : session.Reachable) (script : String) :
    ((session.run script).2.replayToEnd 0 []).session.replay.stage = .drained ∧
      ∀ {ended delivered}, Waits (session.run script).2 [] ended delivered →
        ended.replay.stage = .drained → ShowsRun session script ended delivered.reverse := by
  obtain ⟨q, playing, display, logical⟩ := session.run_plays reachable script
  constructor
  · obtain ⟨beats, plays, -⟩ := replayToEnd_keeps Plays.advance 0 playing
    exact plays.drained_of_empty (queue_replayToEnd _ _ _)
  · intro ended delivered waits drained
    obtain ⟨beats, rest, parts⟩ := waits.keeps Plays.advance playing
    obtain ⟨rfl, rfl⟩ := rest.eq_of_drained drained
    -- nothing is left to be delivered, so what has been delivered is all there is
    rw [List.flatMap_nil, List.append_nil] at parts
    obtain ⟨recorded, led, -, -⟩ := session.run_recordings script
    have shown := session.shownEntries_eq script
    exact {
      linked := session.run_linked script
      journal := by rw [recorded, map_fst_traced]
      logical
      all := fun each => by
        rw [each, if_neg Bool.false_ne_true] at shown
        rw [shown, ← recorded, ← led] at parts
        rw [shown, ← led, ← logical] at display
        exact ⟨parts, display⟩
      once := fun once => by
        rw [once, if_pos rfl] at shown
        rwa [shown] at parts }

/-- The corridor after a step to FINISH, when one has waited to the end. -/
theorem replay_shows_run_corridor :
    corridor.Reachable ∧
      ShowsRun corridor "(move-forward a)"
        ((corridor.run "(move-forward a)").2.replayToEnd 0 []).session
        ((corridor.run "(move-forward a)").2.replayToEnd 0 []).delivered.reverse := by
  have reachable : corridor.Reachable :=
    .start (show Session.start .default corridor.level = .ok corridor from rfl)
  obtain ⟨drained, shows⟩ := replay_shows_run reachable "(move-forward a)"
  exact ⟨reachable, shows (.replayToEnd 0 .refl) drained⟩

end BlockPuzzle.Session
