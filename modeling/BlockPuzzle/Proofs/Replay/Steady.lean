import BlockPuzzle.Proofs.Replay.Fire

/-!
# Steady replays

Whatever attempts a replay is put to work on, it has at most one timer, which is of the present
generation, and none while it is idle or drained: `Replay.Reachable.steady`.
-/

namespace BlockPuzzle

namespace Replay

/-- A replay that rests has no timer; one at work has a single one of its own generation. -/
inductive Steady (replay : Replay) : Prop where
  | idle :
    replay.queue = [] →
    replay.stage = .idle →
    Steady replay
  | drained :
    replay.queue = [] →
    replay.stage = .drained →
    Steady replay
  | pending (timer : Timer) :
    replay.queue = [timer] →
    timer.generation = replay.generation →
    replay.stage ≠ .idle →
    replay.stage ≠ .drained →
    Steady replay

/-- The replays that a program can come to; each step may bring another attempt. -/
inductive Reachable : Replay → Prop where
  | idle (dedupe : Bool) :
    Reachable (.idle dedupe)
  | start {replay attempt cadence now started} :
    Reachable replay →
    replay.start attempt cadence now = .ok started →
    Reachable started
  | advance {replay} (now : Millis) (attempt : Attempt) (delivered : List Event) :
    Reachable replay →
    Reachable (Performance.advance now ⟨replay, attempt, delivered⟩).2.replay
  | cancel {replay} :
    Reachable replay →
    Reachable replay.cancel

/-- A replay that is idle starts on an attempt that is settled. -/
lemma start_of_idle {replay : Replay} {attempt : Attempt} (idle : replay.stage = .idle)
    (settled : attempt.verdict ≠ .unset) (cadence : Cadence) (now : Millis) :
    replay.start attempt cadence now = .ok { replay with
      queue := enqueue ⟨now.after cadence.step, replay.nextSerial, replay.generation, .step⟩
        replay.queue
      nextSerial := replay.nextSerial + 1
      stage := .scheduled
      cadence := some cadence
      taken := 0
      animated := 0
      skipped := 0 } := by
  rw [start, if_neg (not_not_intro idle), if_neg settled]
  rfl

/-- A replay that started was idle, and the attempt was settled. -/
lemma start_inv {replay started : Replay} {attempt : Attempt} {cadence : Cadence} {now : Millis}
    (start : replay.start attempt cadence now = .ok started) :
    replay.stage = .idle ∧ attempt.verdict ≠ .unset := by
  unfold Replay.start at start
  by_cases idle : replay.stage ≠ .idle
  · rw [if_pos idle] at start
    cases start
  · rw [if_neg idle] at start
    by_cases unset : attempt.verdict = .unset
    · rw [if_pos unset] at start
      cases start
    · exact ⟨Decidable.not_not.1 idle, unset⟩

/-- An idle replay has no timers. -/
lemma Steady.queue_of_idle {replay : Replay} (steady : replay.Steady)
    (idle : replay.stage = .idle) : replay.queue = [] := by
  cases steady with
  | idle queue => exact queue
  | drained queue => exact queue
  | pending _ _ _ busy => exact absurd idle busy

/-- Nor has a drained one. -/
lemma Steady.queue_of_drained {replay : Replay} (steady : replay.Steady)
    (drained : replay.stage = .drained) : replay.queue = [] := by
  cases steady with
  | idle queue => exact queue
  | drained queue => exact queue
  | pending _ _ _ _ undrained => exact absurd drained undrained

/-- The first timer of a steady replay is the only one, and it is of the present generation. -/
lemma Steady.single_of_cons {replay : Replay} {timer : Timer} {others : List Timer}
    (steady : replay.Steady) (queue : replay.queue = timer :: others) :
    others = [] ∧ timer.generation = replay.generation := by
  cases steady with
  | idle empty => cases queue.symm.trans empty
  | drained empty => cases queue.symm.trans empty
  | pending single one current =>
    obtain ⟨rfl, rfl⟩ := List.cons.inj (queue.symm.trans one)
    exact ⟨rfl, current⟩

end Replay

namespace Performance

open Replay (Steady Reachable)

variable {p : Performance}

/-- Any timer that fires leaves a replay without other timers steady. -/
lemma steady_fire (empty : p.replay.queue = []) (timer : Timer) : (p.fire timer).replay.Steady := by
  obtain ⟨next, single, current, -, stage⟩ | ⟨none, stage⟩ := fire_leaves empty timer
  · refine .pending next single current ?_ ?_
    · exact fun idle => by cases stage.symm.trans idle
    · exact fun drained => by cases stage.symm.trans drained
  · exact .drained none stage

/-- Firing the timers that are due leaves a replay steady. -/
lemma steady_fireDue (now : Millis) (fired : Nat) (steady : p.replay.Steady) :
    (fireDue now fired p).2.replay.Steady := by
  fun_induction fireDue now fired p with
  | case1 => exact steady
  | case2 fired p timer others queue due current ih =>
    obtain ⟨rfl, -⟩ := steady.single_of_cons queue
    exact ih (steady_fire rfl _)
  | case3 fired p timer others queue due stale ih =>
    -- the single timer is never one of an earlier generation
    exact absurd (steady.single_of_cons queue).2 stale
  | case4 => exact steady

/-- A steady replay stays so when it settles. -/
lemma steady_settle (steady : p.replay.Steady) : p.settle.replay.Steady := by
  unfold settle
  by_cases animating : p.replay.stage = .animating
  · rw [if_pos animating]
    cases steady with
    | idle _ idle => cases animating.symm.trans idle
    | drained _ drained => cases animating.symm.trans drained
    | pending timer one current => exact .pending timer one current (by simp) (by simp)
  · rwa [if_neg animating]

end Performance

/-- Every replay that a program can come to is steady. -/
theorem Replay.Reachable.steady {replay : Replay} (reachable : replay.Reachable) :
    replay.Steady := by
  induction reachable with
  | idle => exact .idle rfl rfl
  | @start replay attempt cadence now started _ start ih =>
    obtain ⟨idle, settled⟩ := start_inv start
    rw [start_of_idle idle settled] at start
    cases start
    refine .pending ⟨now.after cadence.step, replay.nextSerial, replay.generation, .step⟩ ?_ rfl
      (by simp) (by simp)
    rw [ih.queue_of_idle idle]
    rfl
  | advance now attempt delivered _ ih =>
    exact Performance.steady_settle (Performance.steady_fireDue now 0 ih)
  | cancel => exact .idle rfl rfl

/-- None of them is at work; only a timer that fires puts a replay to work, and an advance lets it
wait again. -/
lemma Replay.Reachable.still {replay : Replay} (reachable : replay.Reachable) :
    replay.stage ≠ .animating := by
  cases reachable with
  | idle => exact Stage.noConfusion
  | start _ start =>
    obtain ⟨idle, settled⟩ := start_inv start
    rw [start_of_idle idle settled] at start
    cases start
    exact Stage.noConfusion
  | advance now attempt delivered _ =>
    simp only [Performance.advance, Performance.settle]
    split
    · exact Stage.noConfusion
    · next still => exact still
  | cancel => exact Stage.noConfusion

end BlockPuzzle
