import BlockPuzzle.Proofs.Playback.Turn
import BlockPuzzle.Proofs.Session.Replay

/-!
# Playing to the end

Played in real time with nothing that cancels, a session comes to the end that a replay at once
brings it to, with the same events: `Session.play_drains`. The signals only split the waits, and a
wait that is split ends as it would have (`Session.ending_advance`).
-/

namespace BlockPuzzle

/-- What is left of a wait leads to where the whole wait leads. -/
lemma Millis.after_delayTo {now elapsed deadline : Millis}
    (early : elapsed ≤ now.delayTo deadline) :
    (now.after elapsed).after ((now.after elapsed).delayTo deadline) =
      now.after (now.delayTo deadline) := by
  have bound : deadline.toNat ≤ last.toNat := Nat.le_of_lt_succ deadline.toNat_lt
  rw [UInt64.le_iff_toNat_le, toNat_delayTo] at early
  apply UInt64.toNat_inj.1
  rw [toNat_after, toNat_delayTo, toNat_after, toNat_after, toNat_delayTo]
  omega

namespace Session

variable {session : Session} {elapsed delay : Millis}

/-! ## The end of a replay -/

/-- The session at the end of its replay, and all that has been delivered by then. -/
def ending (session : Session) (delivered : List Event) : Session × List Event :=
  ((session.replayToEnd 0 delivered).session, (session.replayToEnd 0 delivered).delivered)

/-- The timers that fired before are only counted. -/
lemma replayToEnd_add (session : Session) (fired more : Nat) (delivered : List Event) :
    session.replayToEnd (fired + more) delivered =
      { session.replayToEnd fired delivered with
        fired := (session.replayToEnd fired delivered).fired + more } := by
  fun_induction replayToEnd session fired delivered with
  | case1 session fired delivered none => exact replayToEnd_of_none none _ _
  | case2 session fired delivered delay some next ih =>
    rw [replayToEnd_of_some some, ← ih, Nat.add_right_comm]

/-- A session without timers is at the end of its replay. -/
lemma ending_of_none (none : session.nextDeadlineIn? = none) (delivered : List Event) :
    session.ending delivered = (session, delivered) := by
  unfold ending
  rw [replayToEnd_of_none none]

/-- The end of a replay is that of what is left when its first timer has gone off. -/
lemma ending_of_some (some : session.nextDeadlineIn? = some delay) (delivered : List Event) :
    session.ending delivered = (session.advance delay delivered).session.ending
      (session.advance delay delivered).delivered := by
  unfold ending
  rw [replayToEnd_of_some some, replayToEnd_add]

/-- An advance that goes no further than the next deadline changes nothing about the end. -/
lemma ending_advance (still : session.replay.stage ≠ .animating)
    (next : session.nextDeadlineIn? = some delay) (early : elapsed ≤ delay)
    (delivered : List Event) :
    (session.advance elapsed delivered).session.ending
        (session.advance elapsed delivered).delivered = session.ending delivered := by
  obtain ⟨deadline, first, rfl⟩ := Option.map_eq_some_iff.1 next
  by_cases whole : elapsed = session.clock.delayTo deadline
  · rw [whole, ← ending_of_some next]
  · -- no timer is due yet, so the clock moves and the rest of the wait is still to come
    have split := Millis.after_delayTo early
    have waits : session.advance elapsed delivered =
        ⟨0, { session with clock := session.clock.after elapsed }, delivered⟩ := by
      apply advance_early still
      intro deadline' first' due
      cases first.symm.trans first'
      apply whole
      apply UInt64.toNat_inj.1
      rw [UInt64.le_iff_toNat_le] at early due
      rw [Millis.toNat_after] at due
      rw [Millis.toNat_delayTo] at early ⊢
      omega
    have rest : ({ session with clock := session.clock.after elapsed } : Session).nextDeadlineIn? =
        some ((session.clock.after elapsed).delayTo deadline) :=
      congrArg (Option.map (session.clock.after elapsed).delayTo) first
    rw [waits, ending_of_some rest, ending_of_some next, advance_eq, advance_eq]
    simp only [split]
    rfl

end Session

/-! ## Turns -/

namespace Playback

variable {timerFirst : Nat → Bool} {p q : Playback}

/-- A turn that does not end a playback leaves a session that can be reached and that comes to the
same end. -/
lemma ending_next (reachable : p.session.Reachable) (turn : p.turn timerFirst = .next q) :
    q.session.Reachable ∧ q.session.ending q.delivered = p.session.ending p.delivered := by
  obtain ⟨delay, next, ⟨elapsed, early, moved, -⟩ | ⟨time, -, rfl⟩⟩ := next_cases turn
  · rw [moved.session, moved.delivered]
    exact ⟨.advance elapsed p.delivered reachable,
      Session.ending_advance reachable.replay.still next early p.delivered⟩
  · exact ⟨reachable, rfl⟩

/-- The turn that ends it leaves one that can be reached, too. -/
lemma reachable_of_ended {outcome : Outcome} (reachable : p.session.Reachable)
    (turn : p.turn timerFirst = .ended outcome q) : q.session.Reachable := by
  cases turn_cases turn with
  | drained => exact reachable
  | cancelled => exact .reset reachable

/-- The session that a playback leaves behind is reachable. -/
lemma reachable_run (reachable : p.session.Reachable) (timerFirst : Nat → Bool) :
    (p.run timerFirst).2.session.Reachable := by
  fun_induction run timerFirst p with
  | case1 p outcome q turn => exact reachable_of_ended reachable turn
  | case2 p q turn ih => exact ih (ending_next reachable turn).1

/-- All turns together bring the session to its end. -/
theorem Quiet.run_ending (quiet : Quiet p) (reachable : p.session.Reachable)
    (timerFirst : Nat → Bool) :
    (p.run timerFirst).1 = .drained ∧
      ((p.run timerFirst).2.session, (p.run timerFirst).2.delivered) =
        p.session.ending p.delivered := by
  fun_induction run timerFirst p with
  | case1 p outcome q turn =>
    obtain ⟨rfl, rfl, none⟩ := quiet.ended turn
    exact ⟨rfl, (Session.ending_of_none none _).symm⟩
  | case2 p q turn ih =>
    obtain ⟨reachable', same⟩ := ending_next reachable turn
    rw [← same]
    exact ih (quiet.next turn) reachable'

end Playback

/-- The sessions that can be reached are closed under playing, whatever signals come in. -/
lemma Session.Reachable.play {session : Session} (reachable : session.Reachable)
    (timerFirst : Nat → Bool) (first : Bool) (signals : List (Nat × Signal))
    (delivered : List Event) (sleep : Sleep) :
    (session.play timerFirst first signals delivered sleep).2.session.Reachable := by
  cases first with
  | true => exact .reset reachable
  | false => exact Playback.reachable_run reachable timerFirst

/-- Whatever signals come in, as long as none of them cancels, and however long sleeps last, playing a
session drains it, delivers what a replay to the end delivers, and leaves the session that this
leaves. -/
theorem Session.play_drains {session : Session} {signals : List (Nat × Signal)}
    (reachable : session.Reachable) (quiet : ∀ signal ∈ signals, signal.2 ≠ .send true)
    (timerFirst : Nat → Bool) (delivered : List Event) (sleep : Sleep) :
    (session.play timerFirst false signals delivered sleep).1 = .drained ∧
      (session.play timerFirst false signals delivered sleep).2.delivered =
        (session.replayToEnd 0 delivered).delivered ∧
      (session.play timerFirst false signals delivered sleep).2.session =
        (session.replayToEnd 0 delivered).session := by
  have silent : (session.opening signals delivered sleep).Quiet := ⟨rfl, quiet⟩
  obtain ⟨drained, ending⟩ := silent.run_ending reachable timerFirst
  obtain ⟨same, events⟩ := Prod.mk.inj ending
  exact ⟨drained, events, same⟩

/-- The corridor after a step to FINISH, with a signal in the first wait and a sender that hangs up
as the second timer goes off. -/
theorem Session.play_drains_corridor :
    (corridor.run "(move-forward a)").2.Reachable ∧
      (∀ signal ∈ [(50, Signal.send false), (400, .hangUp)], signal.2 ≠ .send true) ∧
      ((corridor.run "(move-forward a)").2.play (fun _ => false) false
          [(50, .send false), (400, .hangUp)] []).1 = .drained := by
  have reachable : (corridor.run "(move-forward a)").2.Reachable := .run _ corridor_reachable
  have quiet : ∀ signal ∈ [(50, Signal.send false), (400, .hangUp)], signal.2 ≠ .send true := by
    decide
  exact ⟨reachable, quiet, (play_drains reachable quiet (fun _ => false) [] UInt64.toNat).1⟩

end BlockPuzzle
