import BlockPuzzle.Session

/-!
# Playback

A playback lets the replay of a session run in real time, here on a virtual clock of whole
milliseconds. It sleeps until the next timer and listens to a channel at the same time: `true` on the
channel cancels, `false` only wakes the playback, and once the sender has hung up nothing is heard any
more. The channel keeps the latest value only.

Two things are given to a playback, since they are not for it to decide: how long a sleep for a delay
lasts, and a rule that says what comes first when a signal and a timer fall on the same instant.
-/

namespace BlockPuzzle

/-- What can be done with the sending end of a channel. -/
inductive Signal where
  | send (value : Bool)
  | hangUp
  deriving DecidableEq

/-- The receiving end of a channel: the latest value, whether it has not been looked at yet, and
whether the sender has hung up. -/
structure Channel where
  latest : Bool
  unseen : Bool
  closed : Bool
  deriving DecidableEq

namespace Channel

/-- A channel with a first value, which counts as seen. -/
def opened (first : Bool) : Channel :=
  ⟨first, false, false⟩

/-- Takes in a signal; behind a hang-up there are none. -/
def receive (channel : Channel) (signal : Signal) : Channel :=
  if channel.closed then channel
  else
    match signal with
    | .send value => { channel with latest := value, unseen := true }
    | .hangUp => { channel with closed := true }

/-- Whether there is something to hear. -/
def speaks (channel : Channel) : Bool :=
  channel.unseen || channel.closed

/-- No signal makes the channel forget that there is something to look at. -/
theorem unseen_receive {channel : Channel} (signal : Signal) (h : channel.unseen = true) :
    (channel.receive signal).unseen = true := by
  unfold receive
  split
  · exact h
  · split
    · rfl
    · exact h

/-- Once the sender has hung up, signals change nothing. -/
theorem receive_of_closed {channel : Channel} (signal : Signal) (h : channel.closed = true) :
    channel.receive signal = channel := by
  simp [receive, h]

end Channel

/-- How a playback ends. -/
inductive Outcome where
  | drained
  | cancelled
  deriving DecidableEq

/-- The name of an outcome. -/
def Outcome.name : Outcome → String
  | drained => "drained"
  | cancelled => "cancelled"

/-- A playback under way: the session, the events delivered so far, newest first, the time since it
began, the channel, whether it still listens, the signals to come with their times, and how long its
sleeps last. -/
structure Playback where
  session : Session
  delivered : List Event
  time : Nat
  channel : Channel
  listening : Bool
  signals : List (Nat × Signal)
  sleep : Sleep

/-- What one turn of a playback comes to. -/
inductive Turn where
  | ended (outcome : Outcome) (playback : Playback)
  | next (playback : Playback)

namespace Playback

/-- The time at which the channel is heard next. -/
def heardAt? (p : Playback) : Option Nat :=
  if p.listening then
    if p.channel.speaks then some p.time else p.signals.head?.map fun signal => max p.time signal.1
  else none

/-- Waits until a time and takes in all signals up to it. -/
def waitUntil (p : Playback) (time : Nat) : Playback :=
  let heard := p.signals.takeWhile fun signal => decide (signal.1 ≤ time)
  { p with
    time
    channel := heard.foldl (fun channel signal => channel.receive signal.2) p.channel
    signals := p.signals.dropWhile fun signal => decide (signal.1 ≤ time) }

/-- Moves the session on and keeps what it delivers. -/
def advance (p : Playback) (elapsed : Millis) : Playback :=
  let result := p.session.advance elapsed p.delivered
  { p with session := result.session, delivered := result.delivered }

/-- Gives up: the session is reset. -/
def cancel (p : Playback) : Turn :=
  .ended .cancelled { p with session := p.session.reset }

/-- Attends to the channel, `waited` milliseconds into a wait for `delay`. -/
def attend (p : Playback) (waited : Nat) (delay : Millis) : Turn :=
  if p.channel.unseen then
    let p := { p with channel := { p.channel with unseen := false } }
    if p.channel.latest then p.cancel else .next (p.advance (UInt64.ofNat (min waited delay.toNat)))
  else .next { p with listening := false }

/-- One turn: waits for the next timer or for the channel, whichever comes first, and attends to it. -/
def turn (timerFirst : Nat → Bool) (p : Playback) : Turn :=
  match p.session.nextDeadlineIn? with
  | none => .ended .drained p
  | some delay =>
    let due := p.time + p.sleep delay
    let fires : Turn := .next ({ p with time := due }.advance delay)
    match p.heardAt? with
    | none => fires
    | some time =>
      if time < due ∨ (time = due ∧ timerFirst time = false) then
        (p.waitUntil time).attend (time - p.time) delay
      else fires

/-! ## Every turn leaves less to do -/

/-- Timers and entries of the replay, signals to come, and what the channel still has to say. -/
def load (p : Playback) : Nat :=
  p.session.work + p.signals.length + p.channel.unseen.toNat + p.listening.toNat

/-- Moving the session on does not add to the load. -/
theorem load_advance_le (p : Playback) (elapsed : Millis) : (p.advance elapsed).load ≤ p.load := by
  have := Session.work_advance_le p.session elapsed p.delivered
  simp only [load, advance]
  omega

/-- No number of signals makes the channel forget that there is something to look at. -/
theorem unseen_foldl_receive {channel : Channel} (signals : List (Nat × Signal))
    (h : channel.unseen = true) :
    (signals.foldl (fun channel signal => channel.receive signal.2) channel).unseen = true := by
  induction signals generalizing channel with
  | nil => exact h
  | cons signal signals ih => exact ih (Channel.unseen_receive signal.2 h)

/-- Once the sender has hung up, no number of signals changes anything. -/
theorem foldl_receive_of_closed {channel : Channel} (signals : List (Nat × Signal))
    (h : channel.closed = true) :
    signals.foldl (fun channel signal => channel.receive signal.2) channel = channel := by
  induction signals with
  | nil => rfl
  | cons signal signals ih => rw [List.foldl_cons, Channel.receive_of_closed signal.2 h, ih]

/-- A wait that reaches the first signal takes in at least this one. -/
theorem length_dropWhile_lt {p : Playback} {signal : Nat × Signal} {time : Nat}
    (h : p.signals.head? = some signal) (htime : signal.1 ≤ time) :
    (p.signals.dropWhile fun signal => decide (signal.1 ≤ time)).length < p.signals.length := by
  match hsignals : p.signals with
  | [] => simp [hsignals] at h
  | first :: others =>
    obtain rfl : first = signal := by simpa [hsignals] using h
    have := (List.dropWhile_suffix (fun signal : Nat × Signal => decide (signal.1 ≤ time))
      (l := others)).length_le
    simp only [List.dropWhile_cons, htime, decide_true, if_true, List.length_cons]
    omega

/-- What is heard is a signal, a value that was not looked at yet, or the hang-up, after which the
playback does not listen any more: either way there is less to do. -/
theorem load_attend_lt {p q : Playback} {time waited : Nat} {delay : Millis}
    (hheard : p.heardAt? = some time) (h : (p.waitUntil time).attend waited delay = .next q) :
    q.load < p.load := by
  unfold heardAt? at hheard
  split at hheard
  case isFalse => cases hheard
  case isTrue hlistening =>
    have hdrop := (List.dropWhile_suffix (fun signal : Nat × Signal => decide (signal.1 ≤ time))
      (l := p.signals)).length_le
    have hless : p.channel.speaks = false →
        (p.waitUntil time).signals.length < p.signals.length := by
      intro hspeaks
      rw [hspeaks] at hheard
      simp only [Bool.false_eq_true, if_false] at hheard
      obtain ⟨signal, hhead, rfl⟩ := Option.map_eq_some_iff.1 hheard
      exact length_dropWhile_lt hhead (by omega)
    unfold attend at h
    split at h
    case isTrue hunseen =>
      simp only at h
      split at h
      case isTrue => cases h
      case isFalse =>
        cases h
        refine Nat.lt_of_le_of_lt (load_advance_le _ _) ?_
        have hsignals : (p.waitUntil time).signals.length < p.signals.length + p.channel.unseen.toNat := by
          match hu : p.channel.unseen with
          | true => exact Nat.lt_succ_of_le hdrop
          | false =>
            match hc : p.channel.closed with
            | false => exact hless (by simp [Channel.speaks, hu, hc])
            | true =>
              have := foldl_receive_of_closed
                (p.signals.takeWhile fun signal => decide (signal.1 ≤ time)) hc
              simp [waitUntil, this, hu] at hunseen
        simp only [load, waitUntil] at hsignals ⊢
        simp only [Bool.toNat_false]
        omega
    case isFalse hunseen =>
      cases h
      have hu : p.channel.unseen = false := by
        match hu : p.channel.unseen with
        | false => rfl
        | true => exact absurd (unseen_foldl_receive _ hu) hunseen
      have hw : (p.waitUntil time).channel.unseen = false := by simpa using hunseen
      have hl : p.listening.toNat = 1 := by simp [hlistening]
      simp only [load, hw, hu, hl, Bool.toNat_false]
      simp only [waitUntil] at hdrop ⊢
      omega

/-- A turn fires a timer or attends to the channel, so every turn leaves less to do. -/
theorem load_turn_lt {timerFirst : Nat → Bool} {p q : Playback} (h : p.turn timerFirst = .next q) :
    q.load < p.load := by
  unfold turn at h
  split at h
  · cases h
  · next delay hdelay =>
    have hfires : ({ p with time := p.time + p.sleep delay }.advance delay).load < p.load := by
      have := Session.work_advance_lt p.delivered hdelay
      simp only [load, advance]
      omega
    simp only at h
    split at h
    · cases h; exact hfires
    · next time hheard =>
      split at h
      · exact load_attend_lt hheard h
      · cases h; exact hfires

/-- Turns until the playback ends. -/
def run (timerFirst : Nat → Bool) (p : Playback) : Outcome × Playback :=
  match _h : p.turn timerFirst with
  | .ended outcome p => (outcome, p)
  | .next p => p.run timerFirst
termination_by p.load
decreasing_by exact load_turn_lt _h

end Playback

/-- Plays the replay of a session while the given signals come in. A first value `true` of the channel
cancels at once. Sleeps are punctual unless it is said how long they last. -/
def Session.play (session : Session) (timerFirst : Nat → Bool) (first : Bool)
    (signals : List (Nat × Signal)) (delivered : List Event) (sleep : Sleep := UInt64.toNat) :
    Outcome × Playback :=
  if first then
    (.cancelled, ⟨session.reset, delivered, 0, .opened first, true, signals, sleep⟩)
  else
    Playback.run timerFirst ⟨session, delivered, 0, .opened first, true, signals, sleep⟩

end BlockPuzzle
