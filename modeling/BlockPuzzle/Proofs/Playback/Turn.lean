import Mathlib.Tactic.Lemma
import BlockPuzzle.Playback

/-!
# Turns of a playback

All that a turn of a playback can do is listed in `Playback.Turns`, and `Playback.turn_cases` is the
only lemma here that opens the definition of a turn. A playback is quiet when nothing on its channel
cancels; it stays so turn after turn, and can only end because no timer is left.
-/

namespace BlockPuzzle

namespace Playback

variable {timerFirst : Nat → Bool} {p q : Playback} {delay : Millis} {due time : Nat}

/-! ## What a turn can do -/

/-- The channel is heard before a timer that is due goes off. -/
def Hears (timerFirst : Nat → Bool) (p : Playback) (due time : Nat) : Prop :=
  p.heardAt? = some time ∧ (time < due ∨ (time = due ∧ timerFirst time = false))

/-- The first timer has gone off. -/
def goOff (p : Playback) (delay : Millis) : Playback :=
  { p with time := p.time + p.sleep delay }.advance delay

/-- The value of the channel has been looked at. -/
def look (p : Playback) : Playback :=
  { p with channel := { p.channel with unseen := false } }

/-- A value has been heard that does not cancel. The session is moved on by the time that was
waited. -/
def wake (p : Playback) (time : Nat) (delay : Millis) : Playback :=
  (p.waitUntil time).look.advance (UInt64.ofNat (min (time - p.time) delay.toNat))

/-- The sender has been heard hanging up. Here the session is not moved on. -/
def stopListening (p : Playback) (time : Nat) : Playback :=
  { p.waitUntil time with listening := false }

/-- What a turn can come to. -/
inductive Turns (timerFirst : Nat → Bool) (p : Playback) : Turn → Prop where
  | drained :
    p.session.nextDeadlineIn? = none →
    Turns timerFirst p (.ended .drained p)
  | goesOff {delay : Millis} :
    p.session.nextDeadlineIn? = some delay →
    (∀ time, ¬ p.Hears timerFirst (p.time + p.sleep delay) time) →
    Turns timerFirst p (.next (p.goOff delay))
  | cancelled {delay : Millis} {time : Nat} :
    p.session.nextDeadlineIn? = some delay →
    p.Hears timerFirst (p.time + p.sleep delay) time →
    (p.waitUntil time).channel.unseen = true →
    (p.waitUntil time).channel.latest = true →
    Turns timerFirst p (p.waitUntil time).look.cancel
  | woken {delay : Millis} {time : Nat} :
    p.session.nextDeadlineIn? = some delay →
    p.Hears timerFirst (p.time + p.sleep delay) time →
    (p.waitUntil time).channel.unseen = true →
    (p.waitUntil time).channel.latest = false →
    Turns timerFirst p (.next (p.wake time delay))
  | hungUp {delay : Millis} {time : Nat} :
    p.session.nextDeadlineIn? = some delay →
    p.Hears timerFirst (p.time + p.sleep delay) time →
    (p.waitUntil time).channel.unseen = false →
    Turns timerFirst p (.next (p.stopListening time))

/-- A channel that is heard is attended to. -/
lemma turns_attend (next : p.session.nextDeadlineIn? = some delay)
    (hears : p.Hears timerFirst (p.time + p.sleep delay) time) :
    Turns timerFirst p ((p.waitUntil time).attend (time - p.time) delay) := by
  change Turns timerFirst p
    (if (p.waitUntil time).channel.unseen then
      if (p.waitUntil time).channel.latest then (p.waitUntil time).look.cancel
      else .next (p.wake time delay)
    else .next (p.stopListening time))
  cases unseen : (p.waitUntil time).channel.unseen with
  | false => exact .hungUp next hears unseen
  | true =>
    cases latest : (p.waitUntil time).channel.latest with
    | true => exact .cancelled next hears unseen latest
    | false => exact .woken next hears unseen latest

/-- Every turn does one of these things. -/
theorem turn_cases {turn : Turn} (comes : p.turn timerFirst = turn) : Turns timerFirst p turn := by
  subst comes
  unfold Playback.turn
  cases next : p.session.nextDeadlineIn? with
  | none => exact .drained next
  | some delay =>
    cases heard : p.heardAt? with
    | none => exact .goesOff next fun time hears => by cases heard.symm.trans hears.1
    | some time =>
      by_cases first : time < p.time + p.sleep delay ∨
          (time = p.time + p.sleep delay ∧ timerFirst time = false)
      · simp only [if_pos first]
        exact turns_attend next ⟨heard, first⟩
      · simp only [if_neg first]
        refine .goesOff next fun time' hears => first ?_
        cases heard.symm.trans hears.1
        exact hears.2

/-! ## Time -/

/-- Only a playback that listens hears the channel. -/
lemma Hears.listening (hears : p.Hears timerFirst due time) : p.listening = true := by
  obtain ⟨heard, -⟩ := hears
  unfold heardAt? at heard
  split at heard
  · next listening => exact listening
  · cases heard

/-- What is heard is heard during the wait. -/
lemma Hears.within (hears : p.Hears timerFirst due time) : p.time ≤ time ∧ time ≤ due := by
  obtain ⟨heard, first⟩ := hears
  have later : p.time ≤ time := by
    unfold heardAt? at heard
    split at heard
    · split at heard
      · cases heard
        exact Nat.le_refl _
      · obtain ⟨signal, -, rfl⟩ := Option.map_eq_some_iff.1 heard
        exact Nat.le_max_left _ _
    · cases heard
  exact ⟨later, by omega⟩

/-- No more than the delay is credited, and all that was waited if the sleep is punctual. -/
lemma Hears.credited {delay : Millis} (hears : p.Hears timerFirst (p.time + p.sleep delay) time) :
    UInt64.ofNat (min (time - p.time) delay.toNat) ≤ delay ∧
      (p.sleep delay = delay.toNat →
        time = p.time + (UInt64.ofNat (min (time - p.time) delay.toNat)).toNat) := by
  obtain ⟨later, early⟩ := hears.within
  have credited : (UInt64.ofNat (min (time - p.time) delay.toNat)).toNat =
      min (time - p.time) delay.toNat :=
    UInt64.toNat_ofNat_of_lt' (Nat.lt_of_le_of_lt (Nat.min_le_right _ _) delay.toNat_lt)
  constructor
  · rw [UInt64.le_iff_toNat_le, credited]
    exact Nat.min_le_right _ _
  · intro punctual
    rw [credited]
    omega

/-- What every signal leaves true of the channel is true of it after a wait. -/
lemma channel_waitUntil {P : Channel → Prop} (time : Nat) (start : P p.channel)
    (receive : ∀ {channel signal}, P channel → signal ∈ p.signals → P (channel.receive signal.2)) :
    P (p.waitUntil time).channel := by
  have heard := List.takeWhile_prefix (fun signal : Nat × Signal => decide (signal.1 ≤ time))
    (l := p.signals)
  exact List.foldlRecOn _ _ start fun channel kept signal mem => receive kept (heard.subset mem)

/-! ## Turns that do not end a playback -/

/-- The session has been moved on, and the playback listens as before. -/
structure Moved (p : Playback) (elapsed : Millis) (q : Playback) : Prop where
  session : q.session = (p.session.advance elapsed p.delivered).session
  delivered : q.delivered = (p.session.advance elapsed p.delivered).delivered
  listening : p.listening = q.listening

/-- A turn that does not end a playback moves the session on, no further than the first timer and as
far as time has gone on if the sleep is punctual, or hears the sender hanging up. -/
lemma next_cases (turn : p.turn timerFirst = .next q) :
    ∃ delay, p.session.nextDeadlineIn? = some delay ∧
      ((∃ elapsed, elapsed ≤ delay ∧ Moved p elapsed q ∧
          (p.sleep delay = delay.toNat → q.time = p.time + elapsed.toNat)) ∨
        ∃ time, p.Hears timerFirst (p.time + p.sleep delay) time ∧ q = p.stopListening time) := by
  cases turn_cases turn with
  | @goesOff delay next =>
    refine ⟨delay, next, .inl ⟨delay, UInt64.le_refl _, ⟨rfl, rfl, rfl⟩, ?_⟩⟩
    exact congrArg (p.time + ·)
  | @woken delay time next hears =>
    obtain ⟨within, all⟩ := hears.credited
    exact ⟨delay, next, .inl ⟨_, within, ⟨rfl, rfl, rfl⟩, all⟩⟩
  | @hungUp delay time next hears => exact ⟨delay, next, .inr ⟨time, hears, rfl⟩⟩

/-- The sleeps of a playback last as long after a turn as before. -/
lemma sleep_of_next (turn : p.turn timerFirst = .next q) : q.sleep = p.sleep := by
  cases turn_cases turn with
  | goesOff => rfl
  | woken => rfl
  | hungUp => rfl

/-- No turn goes back in time. -/
lemma time_le_of_next (turn : p.turn timerFirst = .next q) : p.time ≤ q.time := by
  cases turn_cases turn with
  | goesOff => exact Nat.le_add_right _ _
  | woken _ hears => exact hears.within.1
  | hungUp _ hears => exact hears.within.1

/-! ## Quiet playbacks -/

/-- Nothing on the channel cancels, now or later. -/
structure Quiet (p : Playback) : Prop where
  latest : p.channel.latest = false
  signals : ∀ signal ∈ p.signals, signal.2 ≠ .send true

/-- A signal that does not cancel leaves the channel with a value that does not. -/
lemma latest_receive {channel : Channel} {signal : Signal} (latest : channel.latest = false)
    (quiet : signal ≠ .send true) : (channel.receive signal).latest = false := by
  unfold Channel.receive
  split
  · exact latest
  · cases signal with
    | send value =>
      cases value with
      | true => exact absurd rfl quiet
      | false => rfl
    | hangUp => exact latest

/-- Waiting keeps a playback quiet. -/
lemma Quiet.waitUntil (quiet : Quiet p) (time : Nat) : Quiet (p.waitUntil time) where
  latest := channel_waitUntil (P := fun channel => channel.latest = false) time quiet.latest
    fun latest mem => latest_receive latest (quiet.signals _ mem)
  signals := fun signal mem => quiet.signals signal (List.dropWhile_suffix _ |>.subset mem)

/-- A turn keeps a playback quiet. -/
lemma Quiet.next (quiet : Quiet p) (turn : p.turn timerFirst = .next q) : Quiet q := by
  cases turn_cases turn with
  | goesOff => exact ⟨quiet.latest, quiet.signals⟩
  | @woken delay time => exact ⟨(quiet.waitUntil time).latest, (quiet.waitUntil time).signals⟩
  | @hungUp delay time => exact ⟨(quiet.waitUntil time).latest, (quiet.waitUntil time).signals⟩

/-- A quiet playback ends when no timer is left, and only then. -/
lemma Quiet.ended {outcome : Outcome} (quiet : Quiet p)
    (turn : p.turn timerFirst = .ended outcome q) :
    outcome = .drained ∧ q = p ∧ p.session.nextDeadlineIn? = none := by
  cases turn_cases turn with
  | drained none => exact ⟨rfl, rfl, none⟩
  | @cancelled delay time _ _ _ latest =>
    cases latest.symm.trans (quiet.waitUntil time).latest

end Playback

/-- The playback of a session as it begins to listen. -/
def Session.opening (session : Session) (signals : List (Nat × Signal)) (delivered : List Event)
    (sleep : Sleep) : Playback :=
  ⟨session, delivered, 0, .opened false, true, signals, sleep⟩

end BlockPuzzle
