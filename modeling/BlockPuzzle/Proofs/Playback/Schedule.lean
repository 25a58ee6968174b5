import Mathlib.Data.List.Basic
import Mathlib.Data.List.TakeWhile
import BlockPuzzle.Proofs.Playback.Course
import BlockPuzzle.Proofs.Session.Replay

/-!
# The schedule of a playback

What a playback delivers, and when. As long as every wait is credited to the session, a beat is
played when the time until it has passed since the playback began. The one wait that is not is that
in which the sender is heard hanging up: it begins anew, and all that follows is late by the time
that was waited until then (`playedAt`). `Session.play_on_schedule` says that nothing else disturbs
the schedule if sleeps are punctual, whatever signals come in, and `Session.play_late_corridor` shows
a replay that is late.
-/

namespace BlockPuzzle

open Performance (Plays InTime due)

/-! ## Beats and the time of a session -/

section

variable {session : Session} {delivered : List Event} {beats : List Beat} {ended : Performance}
  {delay : Millis}

/-- A replay with beats left waits for a timer. -/
lemma Performance.Plays.pending (plays : Plays (session.performance delivered) beats ended)
    (left : beats ≠ []) : ∃ delay, session.nextDeadlineIn? = some delay := by
  refine Option.ne_none_iff_exists'.1 fun none => left ?_
  exact plays.drained_iff.1 (plays.drained_of_empty (Session.queue_of_none none))

/-- The first beat of a replay is that of the timer it waits for, and none comes before it. -/
lemma Performance.Plays.next (plays : Plays (session.performance delivered) beats ended)
    (next : session.nextDeadlineIn? = some delay) :
    ∃ deadline first others, delay = session.clock.delayTo deadline ∧ beats = first :: others ∧
      first.time = deadline.toNat ∧ ∀ beat ∈ beats, deadline.toNat ≤ beat.time := by
  obtain ⟨deadline, first, rfl⟩ := Option.map_eq_some_iff.1 next
  have bound := plays.inTime.2
  cases plays with
  | drained empty =>
    have none : session.replay.nextDeadline? = none := by
      rw [Replay.nextDeadline?, show session.replay.queue = [] from empty]
      rfl
    cases first.symm.trans none
  | @beat _ _ timer _ _ single =>
    have same : session.replay.nextDeadline? = some timer.deadline := by
      rw [Replay.nextDeadline?, show session.replay.queue = [timer] from single]
      rfl
    cases first.symm.trans same
    exact ⟨_, _, _, rfl, rfl, rfl, bound timer single⟩

/-- A session with a timer to come has a last beat. -/
lemma Performance.Plays.last (plays : Plays (session.performance delivered) beats ended)
    (next : session.nextDeadlineIn? = some delay) : ∃ last, beats.getLast? = some last := by
  obtain ⟨-, first, others, -, rfl, -⟩ := plays.next next
  exact ⟨_, List.getLast?_eq_some_getLast (List.cons_ne_nil first others)⟩

end

namespace Playback

variable {timerFirst : Nat → Bool} {p q : Playback} {delay elapsed : Millis} {time : Nat}
  {beats : List Beat} {ended : Performance}

/-! ## Times -/

/-- The time at which something is played that is due at the given one. What follows a wait that was
cut short is late by as much of it as had passed. -/
def playedAt (hangUp : Option (Nat × Nat)) (time : Nat) : Nat :=
  match hangUp with
  | none => time
  | some (start, heard) => if time ≤ start then time else time + (heard - start)

/-- The time of a playback at which its clock would show the time of a beat. -/
def dueAt (p : Playback) (beat : Beat) : Nat :=
  p.time + (beat.time - p.session.clock.toNat)

/-- The time of a playback at which a beat is played. -/
def playTime (timerFirst : Nat → Bool) (p : Playback) (beat : Beat) : Nat :=
  playedAt (p.hangUp? (p.course timerFirst)) (p.dueAt beat)

/-- The events of beats, each with the time that belongs to its beat. -/
def stamp (time : Beat → Nat) (beats : List Beat) : List (Nat × Event) :=
  beats.flatMap fun beat => beat.events.map fun event => (time beat, event)

/-! ## What a turn does to the schedule -/

/-- The session has been moved on as far as time has gone on. -/
structure InStep (p : Playback) (elapsed : Millis) (q : Playback) : Prop
    extends Moved p elapsed q where
  time : q.time = p.time + elapsed.toNat

/-- The clock has gone on as far, since it cannot come to its last instant before the timer is due. -/
lemma InStep.clock (step : InStep p elapsed q) (next : p.session.nextDeadlineIn? = some delay)
    (early : elapsed ≤ delay) :
    q.session.clock.toNat = p.session.clock.toNat + elapsed.toNat := by
  obtain ⟨deadline, -, rfl⟩ := Option.map_eq_some_iff.1 next
  have last : deadline.toNat ≤ Millis.last.toNat := Nat.le_of_lt_succ deadline.toNat_lt
  have last' : p.session.clock.toNat ≤ Millis.last.toNat :=
    Nat.le_of_lt_succ p.session.clock.toNat_lt
  have moved : q.session.clock = p.session.clock.after elapsed := by
    rw [step.session]
    rfl
  rw [UInt64.le_iff_toNat_le, Millis.toNat_delayTo] at early
  rw [moved, Millis.toNat_after]
  omega

/-- A turn that is in step plays the beats that are due, and no beat becomes due at another time. -/
lemma InStep.plays (step : InStep p elapsed q) (next : p.session.nextDeadlineIn? = some delay)
    (early : elapsed ≤ delay) (plays : Plays (p.session.performance p.delivered) beats ended) :
    p.session.clock ≤ q.session.clock ∧
      q.delivered =
        ((beats.takeWhile (due q.session.clock)).flatMap Beat.events).reverse ++ p.delivered ∧
      Plays (q.session.performance q.delivered) (beats.dropWhile (due q.session.clock)) ended ∧
      (∀ beat ∈ beats.takeWhile (due q.session.clock), p.dueAt beat = q.time) ∧
      ∀ beat ∈ beats.dropWhile (due q.session.clock), q.dueAt beat = p.dueAt beat := by
  have clock := step.clock next early
  obtain ⟨deadline, -, -, rfl, -, -, bound⟩ := plays.next next
  obtain ⟨delivered, rest⟩ := plays.advance_due (p.session.clock.after elapsed)
  have moved : q.session.clock = p.session.clock.after elapsed := by
    rw [step.session]
    rfl
  refine ⟨moved ▸ Millis.le_after _ _, ?_, ?_, ?_, ?_⟩
  · rw [step.delivered, moved]
    exact delivered
  · rw [step.session, step.delivered]
    exact rest
  · intro beat mem
    have ripe : due q.session.clock beat = true := List.mem_takeWhile_imp mem
    have := bound beat ((List.takeWhile_prefix _).subset mem)
    rw [UInt64.le_iff_toNat_le, Millis.toNat_delayTo] at early
    rw [due, decide_eq_true_eq, clock] at ripe
    rw [dueAt, step.time]
    omega
  · intro beat mem
    rw [(plays.inTime.1.takeWhile_due _).2] at mem
    have unripe : ¬ beat.time ≤ q.session.clock.toNat := by
      simpa [due] using (List.mem_filter.1 mem).2
    rw [clock] at unripe
    rw [dueAt, dueAt, step.time, clock]
    omega

/-- What is due now is played now. -/
lemma playedAt_now (p : Playback) : playedAt (p.hangUp? (p.course timerFirst)) p.time = p.time := by
  cases hangUp : p.hangUp? (p.course timerFirst) with
  | none => rfl
  | some wait => exact if_pos (hangUp?_within hangUp).1

/-! ## The whole schedule -/

/-- Beats are played when they are due, or late as the sender's hanging up makes them. The playback
ends with the last one. -/
structure OnSchedule (timerFirst : Nat → Bool) (p : Playback) (beats : List Beat) : Prop where
  deliveries : p.deliveries (p.course timerFirst) = stamp (p.playTime timerFirst) beats
  ends : (p.run timerFirst).2.time = (beats.getLast?.map (p.playTime timerFirst)).getD p.time

/-- Two ways to time the beats stamp alike if they agree on each of them. -/
lemma stamp_congr {time time' : Beat → Nat} (same : ∀ beat ∈ beats, time beat = time' beat) :
    stamp time beats = stamp time' beats :=
  List.flatMap_congr fun beat mem => by rw [same beat mem]

/-- A turn in step plays what is due, and the rest is played behind it. -/
lemma InStep.on_schedule (step : InStep p elapsed q) (turn : p.turn timerFirst = .next q)
    (next : p.session.nextDeadlineIn? = some delay) (early : elapsed ≤ delay)
    (plays : Plays (p.session.performance p.delivered) beats ended)
    (rest : OnSchedule timerFirst q (beats.dropWhile (due q.session.clock))) :
    OnSchedule timerFirst p beats := by
  obtain ⟨-, delivered, plays', ripe, later⟩ := step.plays next early plays
  have course := course_of_next turn
  have hangUp : p.hangUp? (p.course timerFirst) = q.hangUp? (q.course timerFirst) := by
    rw [course]
    exact if_pos step.listening
  -- the beats that are due are played now, the others by the later turns
  have now : ∀ beat ∈ beats.takeWhile (due q.session.clock), p.playTime timerFirst beat = q.time := by
    intro beat mem
    rw [playTime, ripe beat mem, hangUp]
    exact q.playedAt_now
  have after : ∀ beat ∈ beats.dropWhile (due q.session.clock),
      p.playTime timerFirst beat = q.playTime timerFirst beat := by
    intro beat mem
    rw [playTime, playTime, later beat mem, hangUp]
  have parts : beats.takeWhile (due q.session.clock) ++ beats.dropWhile (due q.session.clock) =
      beats := List.takeWhile_append_dropWhile
  constructor
  · calc
      p.deliveries (p.course timerFirst)
        = (p.news q).map (fun event => (q.time, event)) ++ q.deliveries (q.course timerFirst) := by
          rw [course]
          rfl
      _ = stamp (fun _ => q.time) (beats.takeWhile (due q.session.clock)) ++
          stamp (q.playTime timerFirst) (beats.dropWhile (due q.session.clock)) := by
          rw [news_of_append delivered, rest.deliveries, List.map_flatMap]
          rfl
      _ = stamp (p.playTime timerFirst) beats := by
          rw [← stamp_congr now, ← stamp_congr after, stamp, stamp, ← List.flatMap_append, parts]
          rfl
  · have last := congrArg List.getLast? parts
    rw [List.getLast?_append] at last
    rw [run_of_next turn, rest.ends, ← last]
    cases dropped : (beats.dropWhile (due q.session.clock)).getLast? with
    | some beat => exact (after beat (List.mem_of_getLast? dropped)).symm
    | none =>
      -- the last beat is one of those that are played now
      cases taken : (beats.takeWhile (due q.session.clock)).getLast? with
      | some beat => exact (now beat (List.mem_of_getLast? taken)).symm
      | none =>
        obtain ⟨beat, some⟩ := plays.last next
        rw [dropped, taken, some] at last
        cases last

/-- When the sender is heard hanging up, all that is left is late by what was waited. -/
lemma on_schedule_stopListening (turn : p.turn timerFirst = .next (p.stopListening time))
    (next : p.session.nextDeadlineIn? = some delay)
    (punctual : p.sleep.Punctual) (hears : p.Hears timerFirst (p.time + p.sleep delay) time)
    (plays : Plays (p.session.performance p.delivered) beats ended)
    (rest : OnSchedule timerFirst (p.stopListening time) beats) :
    OnSchedule timerFirst p beats := by
  obtain ⟨later, early⟩ := hears.within
  have course := course_of_next turn
  have heard : p.hangUp? (p.course timerFirst) = some (p.time, time) := by
    rw [course]
    exact if_neg (by rw [hears.listening]; exact Bool.noConfusion)
  have deaf : (p.stopListening time).hangUp? ((p.stopListening time).course timerFirst) = none :=
    hangUp?_of_deaf rfl
  have late : ∀ beat ∈ beats,
      p.playTime timerFirst beat = (p.stopListening time).playTime timerFirst beat := by
    intro beat mem
    obtain ⟨deadline, -, -, rfl, -, -, bound⟩ := plays.next next
    have := bound beat mem
    rw [punctual (p.session.clock.delayTo deadline), Millis.toNat_delayTo] at early
    have due : p.dueAt beat = p.time + (beat.time - p.session.clock.toNat) := rfl
    have due' : (p.stopListening time).dueAt beat =
        time + (beat.time - p.session.clock.toNat) := rfl
    rw [playTime, playTime, heard, deaf, playedAt, playedAt]
    by_cases now : p.dueAt beat ≤ p.time
    · -- a beat that is due now left no time to wait
      rw [if_pos now]
      omega
    · rw [if_neg now]
      omega
  constructor
  · have silent : p.news (p.stopListening time) = [] := news_of_append rfl
    rw [stamp_congr late, ← rest.deliveries, course]
    simp only [deliveries, silent, List.map_nil, List.nil_append]
  · obtain ⟨beat, last⟩ := plays.last next
    rw [run_of_next turn, rest.ends, last]
    exact (late beat (List.mem_of_getLast? last)).symm

/-- A quiet playback is on schedule if its sleeps are punctual. -/
theorem Quiet.on_schedule (quiet : Quiet p) (punctual : p.sleep.Punctual) (timerFirst : Nat → Bool)
    (plays : Plays (p.session.performance p.delivered) beats ended) :
    OnSchedule timerFirst p beats := by
  fun_induction run timerFirst p generalizing beats with
  | case1 p outcome q turn =>
    obtain ⟨rfl, rfl, none⟩ := quiet.ended turn
    have drained := plays.drained_of_empty (Session.queue_of_none none)
    obtain rfl : beats = [] := plays.drained_iff.1 drained
    constructor
    · rw [course_of_ended turn]
      rfl
    · rw [run_of_ended turn]
      rfl
  | case2 p q turn ih =>
    have punctual' : q.sleep.Punctual := (sleep_of_next turn).symm ▸ punctual
    obtain ⟨delay, next, ⟨elapsed, early, moved, time⟩ | ⟨time, hears, rfl⟩⟩ := next_cases turn
    · have step : InStep p elapsed q := ⟨moved, time (punctual delay)⟩
      obtain ⟨-, -, plays', -⟩ := step.plays next early plays
      exact step.on_schedule turn next early plays (ih (quiet.next turn) punctual' plays')
    · exact on_schedule_stopListening turn next punctual hears plays
        (ih (quiet.next turn) punctual' plays)

end Playback

namespace Session

variable {session : Session} {signals : List (Nat × Signal)} {sleep : Sleep}

/-- A replay that waits for a timer plays some beats. -/
lemma plays_of_pending (reachable : session.replay.Reachable)
    (pending : session.nextDeadlineIn? ≠ none) (delivered : List Event) :
    ∃ beats ended, Performance.Plays (session.performance delivered) beats ended := by
  have waits : session.replay.queue ≠ [] := fun empty => pending (by
    rw [nextDeadlineIn?, Replay.nextDeadline?, empty]
    rfl)
  cases reachable.steady with
  | idle empty => exact absurd empty waits
  | drained empty => exact absurd empty waits
  | pending timer single current _ busy =>
    exact Performance.plays_of_pending (p := session.performance delivered) single current busy

/-- A replay that is pending has beats to play. If sleeps are punctual, they are played when they are
due, and the playback ends with the last one, however values come in that do not cancel. If the sender
hangs up during a wait, what follows is late by as much of this wait as had passed. -/
theorem play_on_schedule (reachable : session.replay.Reachable)
    (pending : session.nextDeadlineIn? ≠ none)
    (quiet : ∀ signal ∈ signals, signal.2 ≠ .send true) (punctual : sleep.Punctual)
    (timerFirst : Nat → Bool) (delivered : List Event) :
    let start := session.opening signals delivered sleep
    let played := (session.play timerFirst false signals delivered sleep).2
    let hangUp := start.hangUp? (start.course timerFirst)
    played.delivered.reverse =
        delivered.reverse ++ (start.deliveries (start.course timerFirst)).map Prod.snd ∧
      (∃ beats ended, Performance.Plays (session.performance delivered) beats ended) ∧
      (∀ {beats ended}, Performance.Plays (session.performance delivered) beats ended →
        start.deliveries (start.course timerFirst) = Playback.stamp
            (fun beat => Playback.playedAt hangUp (beat.time - session.clock.toNat)) beats ∧
          ∃ last, beats.getLast? = some last ∧
            played.time = Playback.playedAt hangUp (last.time - session.clock.toNat)) ∧
      ((∀ signal ∈ signals, signal.2 ≠ .hangUp) → hangUp = none) := by
  intro start played hangUp
  refine ⟨start.delivered_run timerFirst, plays_of_pending reachable pending delivered, ?_, ?_⟩
  · intro beats ended plays
    have silent : Playback.Quiet start := ⟨rfl, quiet⟩
    obtain ⟨deliveries, ends⟩ := silent.on_schedule punctual timerFirst plays
    have due : ∀ beat ∈ beats, start.playTime timerFirst beat =
        Playback.playedAt hangUp (beat.time - session.clock.toNat) := by
      intro beat _
      exact congrArg (Playback.playedAt hangUp) (Nat.zero_add _)
    refine ⟨deliveries.trans (Playback.stamp_congr due), ?_⟩
    obtain ⟨delay, next⟩ := Option.ne_none_iff_exists'.1 pending
    obtain ⟨beat, last⟩ := plays.last next
    rw [last] at ends
    exact ⟨beat, last, ends.trans (due beat (List.mem_of_getLast? last))⟩
  · intro attached
    exact Playback.hangUp?_of_attached ⟨rfl, attached⟩

/-- The beats of the corridor after a step to FINISH. -/
def corridorBeats : List Beat :=
  [⟨100, [.highlight "a", .render ⟨⟨1, 0⟩, .east⟩ .step]⟩,
    ⟨400, [.render ⟨⟨1, 0⟩, .east⟩ (.victory 0)]⟩,
    ⟨700, [.render ⟨⟨1, 0⟩, .east⟩ (.victory 1)]⟩,
    ⟨1000, [.render ⟨⟨1, 0⟩, .east⟩ (.victory 2), .done .success]⟩]

/-- The session that runs a step to FINISH plays the beats of the corridor. -/
lemma corridor_plays : ∃ ended,
    Performance.Plays ((corridor.run "(move-forward a)").2.performance []) corridorBeats ended := by
  obtain ⟨replay, starts, ran⟩ := corridor.run_eq "(move-forward a)"
  obtain ⟨ended, plays, -⟩ := Replay.plays_of_start rfl starts []
  have beats : Performance.timeline corridor.replay.cancel.dedupe
      (corridor.settings.cadence.forVerdict (corridor.execution "(move-forward a)").1.verdict)
      corridor.clock (corridor.execution "(move-forward a)").2 = corridorBeats := by
    decide +kernel
  rw [beats] at plays
  rw [ran]
  exact ⟨ended, plays⟩

/-- A value comes in during the first wait, and the sender hangs up in the middle of the second one:
only what follows is late. -/
theorem play_on_schedule_corridor :
    let session := (corridor.run "(move-forward a)").2
    let start := session.opening [(50, .send false), (250, .hangUp)] [] UInt64.toNat
    session.replay.Reachable ∧ session.nextDeadlineIn? ≠ none ∧
      (∀ signal ∈ [(50, Signal.send false), (250, .hangUp)], signal.2 ≠ .send true) ∧
      Sleep.Punctual UInt64.toNat ∧
      start.deliveries (start.course fun _ => false) =
        Playback.stamp (fun beat => Playback.playedAt (some (100, 250)) (beat.time - 0)) corridorBeats ∧
      (session.play (fun _ => false) false [(50, .send false), (250, .hangUp)] []).2.time = 1150 := by
  intro session start
  have reachable : session.replay.Reachable := (Reachable.run _ corridor_reachable).replay
  have pending : session.nextDeadlineIn? ≠ none := by decide +kernel
  have quiet : ∀ signal ∈ [(50, Signal.send false), (250, .hangUp)], signal.2 ≠ .send true := by
    decide
  have punctual : Sleep.Punctual UInt64.toNat := Sleep.punctual_toNat
  have hangUp : start.hangUp? (start.course fun _ => false) = some (100, 250) := by decide +kernel
  have clock : session.clock.toNat = 0 := by decide +kernel
  obtain ⟨ended, plays⟩ := corridor_plays
  obtain ⟨-, -, all, -⟩ := play_on_schedule reachable pending quiet punctual (fun _ => false) []
  obtain ⟨deliveries, last, is, ends⟩ := all plays
  rw [hangUp, clock] at deliveries ends
  have time : last.time = 1000 := by
    cases is
    rfl
  rw [time] at ends
  exact ⟨reachable, pending, quiet, punctual, deliveries, ends⟩

/-- The sender hangs up in the middle of the first wait, and everything is late by the time that had
passed, the end included, which was due at 1000. -/
theorem play_late_corridor :
    let session := (corridor.run "(move-forward a)").2
    let start := session.opening [(50, .hangUp)] [] UInt64.toNat
    session.Reachable ∧ (∃ ended, Performance.Plays (session.performance []) corridorBeats ended) ∧
      start.deliveries (start.course fun _ => false) ≠
        Playback.stamp (fun beat => beat.time - session.clock.toNat) corridorBeats ∧
      (session.play (fun _ => false) false [(50, .hangUp)] []).2.time = 1050 :=
  ⟨.run _ corridor_reachable, corridor_plays, by decide +kernel, by decide +kernel⟩

end Session

end BlockPuzzle
