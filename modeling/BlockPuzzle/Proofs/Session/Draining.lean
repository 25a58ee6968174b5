import Mathlib.Algebra.GroupWithZero.Nat
import BlockPuzzle.Proofs.Playback.Schedule
import BlockPuzzle.Proofs.Replay.Tally
import BlockPuzzle.Proofs.Session.Limits

/-!
# Replays that are drained

A replay is brought to its end in rounds, each of which moves the clock on to the next deadline and
fires the timers that are due then (`Session.Rounds`). Whatever the clock shows and however long the
delays are, every round fires a timer, nothing is left after the last one, and the clock shows the
deadline of the last timer. What is delivered does not depend on clock or delays at all:
`Session.replayToEnd_drains`.
-/

namespace BlockPuzzle

namespace Performance

variable {p q : Performance} {beats : List Beat}

/-- When all beats have been played the replay is drained. -/
lemma Plays.ends (plays : Plays p beats q) : q.replay.stage = .drained := by
  induction plays with
  | drained _ stage => exact stage
  | beat _ _ _ _ _ ih => exact ih

/-! ## Counting beats -/

/-- As many timers fire as there are beats due. -/
lemma Plays.fired (plays : Plays p beats q) (now : Millis) (fired : Nat) :
    (Performance.fireDue now fired p).1 = fired + (beats.takeWhile (due now)).length := by
  induction plays generalizing fired with
  | drained empty =>
    rw [fireDue_of_nil empty]
    rfl
  | @beat p q timer events beats single current stage delivered rest ih =>
    rw [fireDue_single single current]
    by_cases ripe : timer.deadline ≤ now
    · have ripe' : due now ⟨timer.deadline.toNat, events⟩ = true :=
        decide_eq_true (UInt64.le_iff_toNat_le.1 ripe)
      rw [if_pos ripe, List.takeWhile_cons_of_pos ripe', ih, List.length_cons]
      omega
    · have unripe : ¬ due now ⟨timer.deadline.toNat, events⟩ = true := fun e =>
        ripe (UInt64.le_iff_toNat_le.2 (of_decide_eq_true e))
      rw [if_neg ripe, List.takeWhile_cons_of_neg unripe]
      rfl

/-- If some beats are due and none is overdue, the last beat is one that is left, or due now. -/
lemma last_dropWhile {now : Millis} (some_due : 1 ≤ (beats.takeWhile (due now)).length)
    (punctual : ∀ beat ∈ beats, now.toNat ≤ beat.time) (start : Nat) :
    ((beats.dropWhile (due now)).getLast?.map Beat.time).getD now.toNat =
      (beats.getLast?.map Beat.time).getD start := by
  have parts : beats.takeWhile (due now) ++ beats.dropWhile (due now) = beats :=
    List.takeWhile_append_dropWhile
  have last := congrArg List.getLast? parts
  rw [List.getLast?_append] at last
  rw [← last]
  cases dropped : (beats.dropWhile (due now)).getLast? with
  | some beat => rfl
  | none =>
    cases taken : (beats.takeWhile (due now)).getLast? with
    | none =>
      rw [List.getLast?_eq_none_iff.1 taken] at some_due
      cases some_due
    | some beat =>
      have mem := List.mem_of_getLast? taken
      have ripe : due now beat = true := List.mem_takeWhile_imp mem
      have later := punctual beat ((List.takeWhile_prefix _).subset mem)
      exact Nat.le_antisymm later (of_decide_eq_true ripe)

/-! ## The end of a timeline -/

/-- The time from the last entry to the end. -/
def tail (cadence : Cadence) (verdict : Verdict) : Nat :=
  if verdict = .success then victoryPictures * cadence.victory.toNat else cadence.step.toNat

/-- What follows the last entry takes as long as the tail. -/
lemma last_finale (cadence : Cadence) (verdict : Verdict) (pose : Pose) (time : Nat) :
    ∃ last, (finale cadence verdict pose time).getLast? = some last ∧
      last.time = clip (time + tail cadence verdict) := by
  unfold finale tail
  by_cases success : verdict = .success
  · rw [if_pos success, if_pos success]
    exact ⟨_, rfl, rfl⟩
  · rw [if_neg success, if_neg success]
    exact ⟨_, rfl, rfl⟩

/-- The last beat comes after a step for every entry, but at least one, and the finale. -/
lemma last_timeline (dedupe : Bool) (cadence : Cadence) (start : Millis) (attempt : Attempt) :
    ∃ last, (timeline dedupe cadence start attempt).getLast? = some last ∧
      last.time = clip (start.toNat + max 1 attempt.journal.toList.length * cadence.step.toNat +
        tail cadence attempt.verdict) := by
  unfold timeline
  rw [List.getLast?_append]
  rw [← length_presented dedupe attempt.marks.animated attempt.journal.toList]
  generalize presented dedupe attempt.marks.animated attempt.journal.toList = shown
  have steps : (if shown.isEmpty then [[]] else moments attempt.display shown).length =
      max 1 shown.length := by
    cases shown with
    | nil => rfl
    | cons entry shown =>
      rw [List.isEmpty_cons, if_neg Bool.false_ne_true, length_moments, List.length_cons]
      omega
  obtain ⟨last, is, time⟩ := last_finale cadence attempt.verdict (lastPose attempt.display shown)
    (start.toNat + max 1 shown.length * cadence.step.toNat)
  rw [steps, is]
  exact ⟨last, rfl, time⟩

end Performance

namespace Session

open Performance (due)

/-! ## Rounds -/

/-- The rounds in which a replay comes to its end, and how many timers each of them fires. -/
inductive Rounds : Session → List Event → List Nat → Session → List Event → Prop where
  | done {session delivered} :
    session.nextDeadlineIn? = none →
    Rounds session delivered [] session delivered
  | round {session delivered delay counts ended delivered'} :
    session.nextDeadlineIn? = some delay →
    Rounds (session.advance delay delivered).session (session.advance delay delivered).delivered
      counts ended delivered' →
    Rounds session delivered ((session.advance delay delivered).fired :: counts) ended delivered'

variable {session : Session} {delivered : List Event} {beats : List Beat} {ended : Performance}

/-- No timer of a session is overdue. -/
lemma Reachable.punctual (reachable : session.Reachable) :
    ∀ timer ∈ session.replay.queue, session.clock ≤ timer.deadline := by
  cases reachable with
  | start started =>
    rw [start_inv started]
    exact fun _ mem => absurd mem List.not_mem_nil
  | @run session script _ =>
    obtain ⟨replay, starts, ran⟩ := session.run_eq script
    obtain ⟨timer, poised, -, deadline, -⟩ := Replay.poised_of_start rfl starts []
    rw [ran]
    intro timer' mem
    obtain rfl : timer' = timer := List.mem_singleton.1 (poised.queue ▸ mem)
    exact deadline ▸ Millis.le_after _ _
  | reset => exact fun _ mem => absurd mem List.not_mem_nil
  | @advance session elapsed delivered reachable =>
    have late := Performance.late_advance (p := session.performance delivered)
      (session.clock.after elapsed) reachable.replay.steady
    exact fun timer mem => UInt64.le_of_lt (late timer mem)
  | @replayToEnd session fired delivered =>
    rw [queue_replayToEnd]
    exact fun _ mem => absurd mem List.not_mem_nil

/-- Beats none of which is overdue: a round fires those at the next deadline. -/
lemma round_plays {delay : Millis}
    (plays : Performance.Plays (session.performance delivered) beats ended)
    (punctual : ∀ beat ∈ beats, session.clock.toNat ≤ beat.time)
    (next : session.nextDeadlineIn? = some delay) :
    let now := session.clock.after delay
    (session.advance delay delivered).fired = (beats.takeWhile (due now)).length ∧
      1 ≤ (beats.takeWhile (due now)).length ∧
      Performance.Plays ((session.advance delay delivered).session.performance
        (session.advance delay delivered).delivered) (beats.dropWhile (due now)) ended ∧
      (∀ beat ∈ beats, now.toNat ≤ beat.time) := by
  intro now
  obtain ⟨deadline, first, others, rfl, rfl, head, bound⟩ := plays.next next
  have reached : now.toNat = deadline.toNat := by
    have early := head ▸ punctual first List.mem_cons_self
    have last : deadline.toNat ≤ Millis.last.toNat := Nat.le_of_lt_succ deadline.toNat_lt
    rw [Millis.toNat_after, Millis.toNat_delayTo]
    omega
  have ripe : due now first = true := decide_eq_true (by omega)
  refine ⟨?_, ?_, (plays.advance_due now).2, fun beat mem => reached ▸ bound beat mem⟩
  · have fired := plays.fired now 0
    rw [Nat.zero_add] at fired
    exact fired
  · rw [List.takeWhile_cons_of_pos ripe, List.length_cons]
    exact Nat.le_add_left 1 _

/-- What a replay to the end has done: rounds that fire a timer each, and nothing is left. -/
structure Drained (session : Session) (fired : Nat) (delivered : List Event) (beats : List Beat)
    (ended : Performance) (result : Advance) : Prop where
  rounds : ∃ counts, Rounds session delivered counts result.session result.delivered ∧
    (∀ count ∈ counts, 1 ≤ count) ∧ counts.sum = beats.length ∧ result.fired = fired + counts.sum
  performance : result.session.performance result.delivered = ended
  clock : result.session.clock.toNat = (beats.getLast?.map Beat.time).getD session.clock.toNat

/-- A replay with beats left plays them all, in rounds. -/
lemma drained_of_plays (fired : Nat)
    (plays : Performance.Plays (session.performance delivered) beats ended)
    (punctual : ∀ beat ∈ beats, session.clock.toNat ≤ beat.time) :
    Drained session fired delivered beats ended (session.replayToEnd fired delivered) := by
  -- every round takes away from the work that is left
  induction work : session.work using Nat.strongRecOn
    generalizing session fired delivered beats with
  | ind n ih =>
    cases pending : session.nextDeadlineIn? with
    | none =>
      rw [replayToEnd_of_none pending]
      obtain ⟨rfl, rfl⟩ := plays.eq_of_drained (plays.drained_of_empty (queue_of_none pending))
      exact ⟨⟨[], .done pending, by simp, rfl, rfl⟩, rfl, rfl⟩
    | some delay =>
      rw [replayToEnd_of_some pending]
      have less : (session.advance delay delivered).session.work < n :=
        work ▸ work_advance_lt delivered pending
      obtain ⟨count, one, rest, bound⟩ := round_plays plays punctual pending
      have parts : beats.takeWhile (due (session.clock.after delay)) ++
          beats.dropWhile (due (session.clock.after delay)) = beats :=
        List.takeWhile_append_dropWhile
      have sublist := List.dropWhile_sublist (l := beats) (due (session.clock.after delay))
      obtain ⟨⟨counts, rounds, each, sum, total⟩, performance, clock⟩ :=
        ih _ less _ rest (fun beat mem => bound beat (sublist.subset mem)) rfl
      refine ⟨⟨_, .round pending rounds, ?_, ?_, ?_⟩, performance, ?_⟩
      · exact List.forall_mem_cons.2 ⟨count ▸ one, each⟩
      · rw [List.sum_cons, sum, count, ← List.length_append, parts]
      · rw [total, List.sum_cons, Nat.add_assoc]
      · exact clock.trans (Performance.last_dropWhile one bound _)

/-- No beat that a session plays is overdue. -/
lemma Reachable.none_overdue (reachable : session.Reachable)
    (plays : Performance.Plays (session.performance delivered) beats ended) :
    ∀ beat ∈ beats, session.clock.toNat ≤ beat.time := by
  have later := plays.inTime.2
  cases plays with
  | drained => exact fun _ mem => absurd mem List.not_mem_nil
  | @beat _ _ timer _ _ single =>
    have early := reachable.punctual timer (single ▸ List.mem_singleton_self timer)
    exact fun beat mem => (UInt64.le_iff_toNat_le.1 early).trans (later timer single beat mem)

/-- A replay that waits for a timer is drained by what it plays. -/
lemma Reachable.drained (reachable : session.Reachable) (pending : session.replay.queue ≠ [])
    (fired : Nat) (delivered : List Event) :
    ∃ beats ended, beats ≠ [] ∧ Performance.Plays (session.performance delivered) beats ended ∧
      Drained session fired delivered beats ended (session.replayToEnd fired delivered) := by
  obtain ⟨beats, ended, plays⟩ :=
    plays_of_pending reachable.replay (mt queue_of_none pending) delivered
  refine ⟨beats, ended, ?_, plays, drained_of_plays fired plays (reachable.none_overdue plays)⟩
  rintro rfl
  exact pending (reachable.replay.steady.queue_of_drained (plays.drained_iff.2 rfl))

/-! ## Pace -/

/-- The time from a run to the end of its replay, by the cadence of its verdict. -/
def runningTime (session : Session) (script : String) : Nat :=
  let attempt := (session.run script).2.attempt
  let cadence := session.settings.cadence.forVerdict attempt.verdict
  max 1 attempt.journal.toList.length * cadence.step.toNat +
    Performance.tail cadence attempt.verdict

/-- After a run its timeline is played. -/
lemma run_plays_timeline (session : Session) (script : String) (delivered : List Event) :
    let attempt := (session.run script).2.attempt
    ∃ ended, Performance.Plays ((session.run script).2.performance delivered)
      (Performance.timeline session.replay.dedupe
        (session.settings.cadence.forVerdict attempt.verdict) session.clock attempt) ended := by
  obtain ⟨replay, starts, ran⟩ := session.run_eq script
  obtain ⟨verdict, -⟩ := session.execution_verdict script
  obtain ⟨ended, plays, -⟩ := Replay.plays_of_start rfl starts delivered
  rw [ran]
  simp only [verdict]
  exact ⟨ended, plays⟩

/-- The replay of a run ends when its running time is over, or at the last instant. -/
lemma clock_replayToEnd (reachable : session.Reachable) (script : String) (fired : Nat)
    (delivered : List Event) :
    ((session.run script).2.replayToEnd fired delivered).session.clock.toNat =
      clip (session.clock.toNat + session.runningTime script) := by
  obtain ⟨ended, plays⟩ := session.run_plays_timeline script delivered
  obtain ⟨last, is, time⟩ := Performance.last_timeline session.replay.dedupe
    (session.settings.cadence.forVerdict (session.run script).2.attempt.verdict) session.clock
    (session.run script).2.attempt
  have running : (session.run script).2.Reachable := .run script reachable
  have drained := drained_of_plays fired plays (running.none_overdue plays)
  rw [drained.clock, is, runningTime, ← Nat.add_assoc]
  exact time

end Session

/-- Settings that differ in the pace of replays only, and in what is logged. -/
structure Settings.DifferInPace (settings settings' : Settings) : Prop where
  tickBudget : settings'.tickBudget = settings.tickBudget
  maxCallDepth : settings'.maxCallDepth = settings.maxCallDepth
  senseRule : settings'.senseRule = settings.senseRule
  dedupe : settings'.dedupe = settings.dedupe

/-- The pace does not matter for the execution of a script. -/
lemma Attempt.execute_paced (attempt : Attempt) (board : Board) {settings settings' : Settings}
    (paced : settings.DifferInPace settings') (script : String) :
    attempt.execute board settings' script = attempt.execute board settings script := by
  unfold execute
  rw [paced.tickBudget, paced.maxCallDepth, paced.senseRule]

namespace Session

variable {session a b : Session} {delivered : List Event} {beats : List Beat} {ended : Performance}

/-- On one level a script leaves the same journal and the same verdict at any pace. -/
lemma run_paced (level : b.level = a.level) (paced : a.settings.DifferInPace b.settings)
    (script : String) :
    (b.run script).2.attempt.journal = (a.run script).2.attempt.journal ∧
      (b.run script).2.attempt.verdict = (a.run script).2.attempt.verdict := by
  obtain ⟨replay, -, ran⟩ := a.run_eq script
  obtain ⟨replay', -, ran'⟩ := b.run_eq script
  rw [ran, ran', a.execution_eq, b.execution_eq, level, Attempt.execute_paced _ _ paced]
  exact ⟨rfl, rfl⟩

/-- A run and a replay to the end deliver what shows the journal, and the end. -/
lemma delivered_replayToEnd (reachable : session.Reachable) (script : String) (fired : Nat) :
    ((session.run script).2.replayToEnd fired []).delivered.reverse =
      (traced session.level.startPose (session.shownEntries script)).flatMap showEntry ++
        showEnd (session.run script).2.attempt.verdict
          (carryOut session.level.startPose (session.shownEntries script)) := by
  obtain ⟨q, playing, -⟩ := session.run_plays reachable script
  obtain ⟨beats, plays, parts⟩ := replayToEnd_keeps Plays.advance fired playing
  have drained := plays.drained_of_empty (queue_replayToEnd _ _ _)
  obtain ⟨rfl, -⟩ := plays.eq_of_drained drained
  rwa [List.flatMap_nil, List.append_nil] at parts

/-- At any pace the same is delivered. -/
lemma delivered_paced (reachable : a.Reachable) (reachable' : b.Reachable)
    (level : b.level = a.level) (paced : a.settings.DifferInPace b.settings) (script : String)
    (fired fired' : Nat) :
    ((b.run script).2.replayToEnd fired' []).delivered =
      ((a.run script).2.replayToEnd fired []).delivered := by
  obtain ⟨journal, verdict⟩ := run_paced level paced script
  have shown : b.shownEntries script = a.shownEntries script := by
    unfold shownEntries
    rw [journal, paced.dedupe]
  apply List.reverse_injective
  rw [delivered_replayToEnd reachable, delivered_replayToEnd reachable', shown, verdict, level]

/-- A replay to the end drains any session that can be reached: round by round, each of which fires
a timer, until none is left and the clock shows the deadline of the last one, which is no earlier
than what it showed before. A session that waits for no timer is left alone. Behind a run the
deadline is the last instant if the running time is too long, and what is delivered is the same
at any pace and from any clock. -/
theorem replayToEnd_drains :
    (∀ {session : Session}, session.Reachable → ∀ (fired : Nat) (delivered : List Event),
      let result := session.replayToEnd fired delivered
      result.session.replay.queue = [] ∧
      (session.replay.queue = [] → result = ⟨fired, session, delivered⟩) ∧
      (session.replay.queue ≠ [] →
        result.session.replay.stage = .drained ∧ session.clock ≤ result.session.clock ∧
        ∃ beats ended, beats ≠ [] ∧ Performance.Plays (session.performance delivered) beats ended ∧
          Drained session fired delivered beats ended result)) ∧
    (∀ {session : Session}, session.Reachable → ∀ (script : String) (fired : Nat)
      (delivered : List Event),
      ((session.run script).2.replayToEnd fired delivered).session.clock.toNat =
        clip (session.clock.toNat + session.runningTime script)) ∧
    ∀ {a b : Session}, a.Reachable → b.Reachable → b.level = a.level →
      a.settings.DifferInPace b.settings → ∀ (script : String) (fired fired' : Nat),
      ((b.run script).2.replayToEnd fired' []).delivered =
        ((a.run script).2.replayToEnd fired []).delivered := by
  refine ⟨fun {session} reachable fired delivered => ?_, clock_replayToEnd, delivered_paced⟩
  intro result
  have empty : result.session.replay.queue = [] := queue_replayToEnd session fired delivered
  refine ⟨empty, fun resting => ?_, fun pending => ?_⟩
  · have idle : session.nextDeadlineIn? = none := by
      rw [nextDeadlineIn?, Replay.nextDeadline?, resting]
      rfl
    exact replayToEnd_of_none idle fired delivered
  · obtain ⟨beats, ended, left, plays, drained⟩ := reachable.drained pending fired delivered
    have stage : (result.session.performance result.delivered).replay.stage = .drained := by
      rw [drained.performance]
      exact plays.ends
    have later := reachable.none_overdue plays _ (List.getLast_mem left)
    have clock := drained.clock
    rw [List.getLast?_eq_some_getLast left] at clock
    exact ⟨stage, UInt64.le_iff_toNat_le.2 (later.trans_eq clock.symm), beats, ended, left, plays,
      drained⟩

/-- The corridor, replayed as slowly as can be. -/
def crawlingCorridor : Session :=
  { corridor with
    settings := { corridor.settings with cadence := ⟨.last, .last, .last, .last, .last⟩ } }

/-- Slow as it is, the replay of a step to FINISH delivers the same as any other, and is over at the
last instant. -/
theorem replayToEnd_drains_corridor :
    let result := (crawlingCorridor.run "(move-forward a)").2.replayToEnd 0 []
    crawlingCorridor.Reachable ∧ corridor.settings.DifferInPace crawlingCorridor.settings ∧
      (crawlingCorridor.run "(move-forward a)").2.replay.queue ≠ [] ∧
      result.session.replay.stage = .drained ∧ result.session.clock = .last ∧
      result.delivered = ((corridor.run "(move-forward a)").2.replayToEnd 0 []).delivered := by
  intro result
  have reachable : crawlingCorridor.Reachable :=
    .start (show Session.start crawlingCorridor.settings corridor.level = .ok crawlingCorridor from
      rfl)
  have paced : corridor.settings.DifferInPace crawlingCorridor.settings := ⟨rfl, rfl, rfl, rfl⟩
  have pending : (crawlingCorridor.run "(move-forward a)").2.replay.queue ≠ [] := by decide +kernel
  have running : Millis.last.toNat ≤ crawlingCorridor.runningTime "(move-forward a)" := by
    have step : ∀ verdict, (crawlingCorridor.settings.cadence.forVerdict verdict).step = .last := by
      rintro (_ | _)
      all_goals rfl
    simp only [runningTime, step]
    exact (Nat.le_mul_of_pos_left _ (Nat.le_max_left 1 _)).trans (Nat.le_add_right _ _)
  obtain ⟨drains, ends, same⟩ := replayToEnd_drains
  obtain ⟨-, -, drained⟩ := drains (.run "(move-forward a)" reachable) 0 []
  have clock : result.session.clock.toNat = Millis.last.toNat := by
    have ended : result.session.clock.toNat = clip _ := ends reachable "(move-forward a)" 0 []
    rw [ended, clip]
    exact Nat.min_eq_right (running.trans (Nat.le_add_left _ _))
  exact ⟨reachable, paced, pending, (drained pending).1, UInt64.toNat_inj.1 clock,
    same corridor_reachable reachable rfl paced "(move-forward a)" 0 0⟩

end Session

end BlockPuzzle
