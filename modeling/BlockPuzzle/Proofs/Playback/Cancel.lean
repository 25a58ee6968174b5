import BlockPuzzle.Proofs.Playback.Schedule
import BlockPuzzle.Proofs.Playback.Signals
import BlockPuzzle.Proofs.Session.Rest

/-!
# Cancelling a playback

A playback that rings ends when the value that cancels is heard. Until then it has played what is due
before that value (`Playback.Rings.cancelled`), and it leaves its session reset.

A later value in the same millisecond keeps one from cancelling, since it overwrites it
(`Session.play_loses_corridor`). Every other value that cancels is heard if sleeps are punctual and it
is sent before the last timer is due: `Session.play_cancels` and `Session.play_cancels_if_standing`.
-/

namespace BlockPuzzle

open Performance (Plays due)

variable {beats : List Beat}

namespace Playback

variable {timerFirst : Nat → Bool} {p q : Playback} {delay elapsed : Millis} {s time time' : Nat}
  {ended : Performance}

/-! ## What comes first -/

/-- Whether a timer that is due at a time goes off before a value is heard that is sent at `s`. -/
def dueBefore (timerFirst : Nat → Bool) (s time : Nat) : Bool :=
  decide (time < s ∨ (time = s ∧ timerFirst s = true))

/-- A timer that goes off before a value is not due after it. -/
lemma le_of_dueBefore (before : dueBefore timerFirst s time = true) : time ≤ s := by
  have := of_decide_eq_true before
  omega

/-- What is due later than a timer that is too late is too late as well. -/
lemma not_dueBefore_of_le (late : dueBefore timerFirst s time = false) (le : time ≤ time') :
    dueBefore timerFirst s time' = false := by
  have := of_decide_eq_false late
  refine decide_eq_false ?_
  rintro (less | ⟨rfl, first⟩)
  · omega
  · exact this (by grind)

/-- A timer that goes off before a value goes off before all later ones. -/
lemma dueBefore_of_le {s' : Nat} (before : dueBefore timerFirst s time = true) (le : s ≤ s') :
    dueBefore timerFirst s' time = true := by
  by_cases same : s = s'
  · exact same ▸ before
  · have := le_of_dueBefore before
    exact decide_eq_true (.inl (by omega))

/-- A value is heard at the time it is sent, unless the timer goes off before it. -/
lemma hears_iff {timer : Nat} : p.Hears timerFirst timer time ↔
    p.heardAt? = some time ∧ dueBefore timerFirst time timer = false := by
  refine and_congr_right fun _ => ?_
  rw [dueBefore, decide_eq_false_iff_not]
  grind

/-! ## Turns of a playback that rings -/

/-- The value that cancels is one of the signals to come. -/
lemma Rings.signal (rings : Rings p s) : ∃ signal ∈ p.signals, signal.1 = s := by
  have stands := (standing_sublist _).subset (List.mem_of_find?_eq_some rings.first)
  have time : s ∈ (sent p.signals).map Prod.fst := List.mem_map.2 ⟨_, stands, rfl⟩
  exact List.mem_map.1 ((map_fst_sent p.signals).subset time)

/-- If a playback that rings ends although a timer is left, it is because the value that cancels has
been heard, before the timer. -/
lemma Rings.ends {outcome : Outcome} (rings : Rings p s)
    (next : p.session.nextDeadlineIn? = some delay) (turn : p.turn timerFirst = .ended outcome q) :
    outcome = .cancelled ∧ q.session = p.session.reset ∧ q.delivered = p.delivered ∧
      dueBefore timerFirst s (p.time + p.sleep delay) = false := by
  cases turn_cases turn with
  | drained none => cases none.symm.trans next
  | cancelled next' hears _ latest =>
    cases next.symm.trans next'
    obtain found | ⟨_, -, found, -⟩ := rings.hears
    · cases hears.1.symm.trans found.heard
      exact ⟨rfl, rfl, rfl, (hears_iff.1 hears).2⟩
    · cases hears.1.symm.trans found.heard
      cases latest.symm.trans found.latest

/-- Otherwise it keeps ringing, and its session has been moved on as far as time has gone on, to an
instant before the value that cancels. -/
lemma Rings.next (rings : Rings p s) (next : p.session.nextDeadlineIn? = some delay)
    (punctual : p.sleep.Punctual) (turn : p.turn timerFirst = .next q) :
    ∃ elapsed ≤ delay, InStep p elapsed q ∧ Rings q s ∧ dueBefore timerFirst s q.time = true := by
  obtain ⟨time, _, _, -, heard, bound⟩ := rings.heardAt?
  obtain ⟨signal, mem, rfl⟩ := rings.signal
  cases turn_cases turn with
  | goesOff next' silent =>
    cases next.symm.trans next'
    -- the timer goes off before anything is heard, so before all signals
    have before : dueBefore timerFirst time (p.time + p.sleep delay) = true := by
      have deaf := silent time
      rw [hears_iff, not_and, Bool.not_eq_false] at deaf
      exact deaf heard
    have before' := dueBefore_of_le before (bound signal mem)
    refine ⟨delay, UInt64.le_refl _, ⟨⟨rfl, rfl, rfl⟩, ?_⟩, ?_, before'⟩
    · exact congrArg (p.time + ·) (punctual delay)
    · have ahead : ∀ signal ∈ p.signals, p.time + p.sleep delay ≤ signal.1 := fun signal mem =>
        Nat.le_trans (le_of_dueBefore before) (bound signal mem)
      exact { rings with ahead }
  | woken next' hears _ latest =>
    cases next.symm.trans next'
    cases hears.1.symm.trans heard
    obtain ⟨within, all⟩ := hears.credited
    obtain found | ⟨time', less, found, attached, first⟩ := rings.hears
    · cases heard.symm.trans found.heard
      cases latest.symm.trans found.latest
    · cases heard.symm.trans found.heard
      have rest : ∀ signal ∈ (p.waitUntil time).signals, signal ∈ p.signals :=
        fun signal mem => (List.dropWhile_suffix _).subset mem
      refine ⟨_, within, ⟨⟨rfl, rfl, rfl⟩, all (punctual delay)⟩,
        ⟨rings.listening, rfl, attached, ?_, ?_, first⟩, decide_eq_true (.inl less)⟩
      · exact rings.times.sublist ((List.dropWhile_suffix _).sublist.map Prod.fst)
      · exact fun signal mem => bound signal (rest signal mem)
  | hungUp _ hears seen =>
    cases hears.1.symm.trans heard
    obtain found | ⟨_, -, found, -⟩ := rings.hears
    · cases heard.symm.trans found.heard
      cases seen.symm.trans found.unseen
    · cases heard.symm.trans found.heard
      cases seen.symm.trans found.unseen

/-! ## The whole run -/

/-- A playback is cancelled by a value that is sent at `s`: the beats that are due before it have
been played, and then the session was reset. -/
structure CancelledAt (timerFirst : Nat → Bool) (p : Playback) (s : Nat) (beats : List Beat) :
    Prop where
  outcome : (p.run timerFirst).1 = .cancelled
  delivered : (p.run timerFirst).2.delivered =
    ((beats.filter fun beat => dueBefore timerFirst s (p.dueAt beat)).flatMap Beat.events).reverse ++
      p.delivered
  session : ∃ session, p.session.Spared session ∧ (p.run timerFirst).2.session = session.reset

/-- A turn in step plays what is due, and that is due before the value. -/
lemma InStep.cancelledAt (step : InStep p elapsed q) (turn : p.turn timerFirst = .next q)
    (next : p.session.nextDeadlineIn? = some delay) (early : elapsed ≤ delay)
    (plays : Plays (p.session.performance p.delivered) beats ended)
    (before : dueBefore timerFirst s q.time = true)
    (rest : CancelledAt timerFirst q s (beats.dropWhile (due q.session.clock))) :
    CancelledAt timerFirst p s beats := by
  obtain ⟨-, delivered, -, ripe, later⟩ := step.plays next early plays
  have now : (beats.takeWhile (due q.session.clock)).filter
      (fun beat => dueBefore timerFirst s (p.dueAt beat)) = beats.takeWhile (due q.session.clock) :=
    List.filter_eq_self.2 fun beat mem => by
      rw [ripe beat mem]
      exact before
  have after : (beats.dropWhile (due q.session.clock)).filter
        (fun beat => dueBefore timerFirst s (p.dueAt beat)) =
      (beats.dropWhile (due q.session.clock)).filter
        fun beat => dueBefore timerFirst s (q.dueAt beat) :=
    List.filter_congr fun beat mem => by rw [later beat mem]
  have parts : beats.takeWhile (due q.session.clock) ++ beats.dropWhile (due q.session.clock) =
      beats := List.takeWhile_append_dropWhile
  obtain ⟨session, spared, reset⟩ := rest.session
  constructor
  · rw [run_of_next turn]
    exact rest.outcome
  · rw [run_of_next turn, rest.delivered, delivered, ← parts, List.filter_append, now, after, parts,
      List.flatMap_append, List.reverse_append, List.append_assoc]
  · have moved : p.session.Spared q.session := by
      rw [step.session]
      exact Session.spared_advance _ _ _
    rw [run_of_next turn]
    exact ⟨session, moved.trans spared, reset⟩

/-- A playback that rings before the last of its beats is due is cancelled then. -/
theorem Rings.cancelled (rings : Rings p s) (punctual : p.sleep.Punctual) (timerFirst : Nat → Bool)
    (plays : Plays (p.session.performance p.delivered) beats ended)
    (early : ∃ beat ∈ beats, s < p.dueAt beat) :
    CancelledAt timerFirst p s beats := by
  fun_induction run timerFirst p generalizing beats with
  | case1 p outcome q turn =>
    obtain ⟨beat, mem, -⟩ := early
    obtain ⟨delay, next⟩ := plays.pending (List.ne_nil_of_mem mem)
    obtain ⟨rfl, reset, same, late⟩ := rings.ends next turn
    obtain ⟨deadline, -, -, rfl, -, -, bound⟩ := plays.next next
    -- the value is heard before the first timer, so before all of them
    have none : beats.filter (fun beat => dueBefore timerFirst s (p.dueAt beat)) = [] := by
      refine List.filter_eq_nil_iff.2 fun beat mem => ne_true_of_eq_false ?_
      refine not_dueBefore_of_le late (Nat.add_le_add_left ?_ p.time)
      have := bound beat mem
      rw [punctual (p.session.clock.delayTo deadline), Millis.toNat_delayTo]
      omega
    constructor
    · rw [run_of_ended turn]
    · rw [run_of_ended turn, none]
      exact same
    · rw [run_of_ended turn]
      exact ⟨_, .refl _, reset⟩
  | case2 p q turn ih =>
    obtain ⟨beat, mem, later⟩ := early
    obtain ⟨delay, next⟩ := plays.pending (List.ne_nil_of_mem mem)
    have punctual' : q.sleep.Punctual := (sleep_of_next turn).symm ▸ punctual
    obtain ⟨elapsed, early, step, rings', before⟩ := rings.next next punctual turn
    obtain ⟨-, -, plays', ripe, same⟩ := step.plays next early plays
    -- the beat that is due after the value has not been played
    have left : beat ∈ beats.dropWhile (due q.session.clock) := by
      rw [← List.takeWhile_append_dropWhile (p := due q.session.clock) (l := beats)] at mem
      obtain mem | mem := List.mem_append.1 mem
      · rw [ripe beat mem] at later
        exact absurd later (Nat.not_lt_of_le (le_of_dueBefore before))
      · exact mem
    exact step.cancelledAt turn next early plays before
      (ih rings' punctual' plays' ⟨beat, left, (same beat left).symm ▸ later⟩)

end Playback

namespace Session

variable {session : Session} {signals : List (Nat × Signal)} {s : Nat} {sleep : Sleep}

/-- The beats that are played before a value is heard that is sent `s` milliseconds after the
beginning of a playback. -/
def beatsBefore (session : Session) (timerFirst : Nat → Bool) (s : Nat) (beats : List Beat) :
    List Beat :=
  beats.filter fun beat => Playback.dueBefore timerFirst s (beat.time - session.clock.toNat)

/-- What a cancelled playback has delivered and left: a few more events but not the end, and a
session that is cleared and stays silent until a script is run. -/
structure CutShort (session : Session) (delivered events : List Event)
    (played : Outcome × Playback) : Prop where
  outcome : played.1 = .cancelled
  delivered : played.2.delivered.reverse = delivered.reverse ++ events
  unfinished : ∀ verdict, .done verdict ∉ events
  cleared : session.Cleared played.2.session
  silent : ∀ {history : List Operation}, (∀ script, .run script ∉ history) →
    ∀ wait, ((played.2.session.after history).wait wait).delivered = []

/-- Playing is cut short by the first value that stands and cancels, if it is sent before the last
timer is due. -/
lemma cutShort_of_standing {delivered : List Event} {ended : Performance} {last : Beat}
    (times : (signals.map Prod.fst).Pairwise (· ≤ ·))
    (first : (standing (sent signals)).find? Prod.snd = some (s, true))
    (punctual : sleep.Punctual) (timerFirst : Nat → Bool)
    (plays : Performance.Plays (session.performance delivered) beats ended)
    (final : beats.getLast? = some last) (early : s < last.time - session.clock.toNat) :
    CutShort session delivered ((session.beatsBefore timerFirst s beats).flatMap Beat.events)
      (session.play timerFirst false signals delivered sleep) := by
  have rings : Playback.Rings (session.opening signals delivered sleep) s :=
    ⟨rfl, rfl, rfl, times, fun _ _ => Nat.zero_le _, first⟩
  have due : ∀ beat, (session.opening signals delivered sleep).dueAt beat =
      beat.time - session.clock.toNat := fun beat => Nat.zero_add _
  obtain ⟨outcome, news, ⟨later, spared, reset⟩⟩ := rings.cancelled punctual timerFirst plays
    ⟨last, List.mem_of_getLast? final, (due last).symm ▸ early⟩
  have cleared : session.Cleared (session.play timerFirst false signals delivered sleep).2.session :=
    reset ▸ spared.cleared
  refine ⟨outcome, ?_, ?_, cleared, fun runs wait => cleared.resting.silent runs wait⟩
  · simp only [due] at news
    change ((session.opening signals delivered sleep).run timerFirst).2.delivered.reverse = _
    rw [news, List.reverse_append, List.reverse_reverse]
    rfl
  · intro verdict mem
    obtain ⟨beat, mem, announced⟩ := List.mem_flatMap.1 mem
    obtain ⟨mem, before⟩ := List.mem_filter.1 mem
    obtain ⟨others, rfl⟩ := List.getLast?_eq_some_iff.1 final
    obtain mem | mem := List.mem_append.1 mem
    · -- all beats but the last one announce no end
      refine plays.unfinished beat ?_ verdict announced
      rw [List.dropLast_concat]
      exact mem
    · obtain rfl := List.mem_singleton.1 mem
      exact absurd (Playback.le_of_dueBefore before) (Nat.not_le_of_lt early)

/-- Among signals no two of which come in at the same time, the first value that cancels cuts playing
short if sleeps are punctual and it is sent before the last timer is due. Then the timers that are due
before it have gone off, and those that are due with it, all of them or none. -/
theorem play_cancels (reachable : session.replay.Reachable)
    (pending : session.nextDeadlineIn? ≠ none)
    (distinct : (signals.map Prod.fst).Pairwise (· < ·))
    (cancels : (sent signals).find? Prod.snd = some (s, true)) (punctual : sleep.Punctual)
    (timerFirst : Nat → Bool) (delivered : List Event) :
    (∃ beats ended, Performance.Plays (session.performance delivered) beats ended) ∧
      ∀ {beats ended last}, Performance.Plays (session.performance delivered) beats ended →
        beats.getLast? = some last → s < last.time - session.clock.toNat →
        CutShort session delivered ((session.beatsBefore timerFirst s beats).flatMap Beat.events)
          (session.play timerFirst false signals delivered sleep) := by
  refine ⟨plays_of_pending reachable pending delivered, ?_⟩
  intro beats ended last plays final early
  have stand : standing (sent signals) = sent signals :=
    standing_of_distinct (distinct.sublist (map_fst_sent signals).sublist)
  refine cutShort_of_standing (distinct.imp Nat.le_of_lt) ?_ punctual timerFirst plays final early
  rw [stand]
  exact cancels

/-- The corridor is cancelled in the wait for the second picture of the victory, after a wait that
was split. -/
theorem play_cancels_corridor :
    let session := (corridor.run "(move-forward a)").2
    let signals := [(250, Signal.send false), (650, .send true), (660, .hangUp)]
    session.replay.Reachable ∧ session.nextDeadlineIn? ≠ none ∧
      (signals.map Prod.fst).Pairwise (· < ·) ∧
      (sent signals).find? Prod.snd = some (650, true) ∧
      Sleep.Punctual UInt64.toNat ∧
      CutShort session []
        [.highlight "a", .render ⟨⟨1, 0⟩, .east⟩ .step, .render ⟨⟨1, 0⟩, .east⟩ (.victory 0)]
        (session.play (fun _ => false) false signals []) := by
  intro session signals
  have reachable : session.replay.Reachable := (Reachable.run _ corridor_reachable).replay
  have pending : session.nextDeadlineIn? ≠ none := by decide +kernel
  have distinct : (signals.map Prod.fst).Pairwise (· < ·) := by decide
  have cancels : (sent signals).find? Prod.snd = some (650, true) := by decide
  have punctual : Sleep.Punctual UInt64.toNat := Sleep.punctual_toNat
  have early : 650 < 1000 - session.clock.toNat := by decide +kernel
  have played : (session.beatsBefore (fun _ => false) 650 corridorBeats).flatMap Beat.events =
      [.highlight "a", .render ⟨⟨1, 0⟩, .east⟩ .step, .render ⟨⟨1, 0⟩, .east⟩ (.victory 0)] := by
    decide +kernel
  obtain ⟨ended, plays⟩ := corridor_plays
  obtain ⟨-, all⟩ := play_cancels reachable pending distinct cancels punctual (fun _ => false) []
  have cut := all plays rfl early
  rw [played] at cut
  exact ⟨reachable, pending, distinct, cancels, punctual, cut⟩

/-- A value that cancels is sent before the last timer is due, but the playback goes on to the end. -/
structure Missed (session : Session) (signals : List (Nat × Signal)) (s : Nat) : Prop where
  reachable : session.Reachable
  pending : session.nextDeadlineIn? ≠ none
  times : (signals.map Prod.fst).Pairwise (· ≤ ·)
  mem : (s, true) ∈ sent signals
  early : ∃ beats ended last, Performance.Plays (session.performance []) beats ended ∧
    beats.getLast? = some last ∧ s < last.time - session.clock.toNat
  drained : (session.play (fun _ => false) false signals []).1 = .drained

/-- What is sent before the first timer is due is sent before the last one is. -/
lemma early_of_next {delay : Millis} (reachable : session.Reachable)
    (next : session.nextDeadlineIn? = some delay) (before : s < delay.toNat) :
    ∃ beats ended last, Performance.Plays (session.performance []) beats ended ∧
      beats.getLast? = some last ∧ s < last.time - session.clock.toNat := by
  obtain ⟨beats, ended, plays⟩ :=
    plays_of_pending reachable.replay (Option.ne_none_iff_exists'.2 ⟨delay, next⟩) []
  obtain ⟨last, final⟩ := plays.last next
  obtain ⟨deadline, -, -, rfl, -, -, bound⟩ := plays.next next
  rw [Millis.toNat_delayTo] at before
  have := bound last (List.mem_of_getLast? final)
  exact ⟨beats, ended, last, plays, final, by omega⟩

/-- However signals come in, a value that stands and cancels cuts playing short if sleeps are punctual
and it is sent before the last timer is due. An earlier one may do so before it, and a channel that
begins with such a value does so at once. -/
theorem play_cancels_if_standing (reachable : session.replay.Reachable)
    (pending : session.nextDeadlineIn? ≠ none)
    (times : (signals.map Prod.fst).Pairwise (· ≤ ·))
    (stands : (s, true) ∈ standing (sent signals)) (punctual : sleep.Punctual)
    (timerFirst : Nat → Bool) (first : Bool) (delivered : List Event) :
    (∃ beats ended, Performance.Plays (session.performance delivered) beats ended) ∧
      ∀ {beats ended last}, Performance.Plays (session.performance delivered) beats ended →
        beats.getLast? = some last → s < last.time - session.clock.toNat →
        ∃ heard ≤ s, CutShort session delivered
          (if first then []
            else (session.beatsBefore timerFirst heard beats).flatMap Beat.events)
          (session.play timerFirst first signals delivered sleep) := by
  refine ⟨plays_of_pending reachable pending delivered, ?_⟩
  intro beats ended last plays final early
  cases first with
  | true =>
    have cleared : session.Cleared session.reset := (Spared.refl session).cleared
    refine ⟨s, Nat.le_refl _, rfl, (List.append_nil _).symm, fun _ => List.not_mem_nil, cleared, ?_⟩
    exact fun runs wait => cleared.resting.silent runs wait
  | false =>
    have sorted : ((standing (sent signals)).map Prod.fst).Pairwise (· ≤ ·) :=
      times.sublist (((standing_sublist _).map Prod.fst).trans (map_fst_sent signals).sublist)
    obtain ⟨heard, le, cancels⟩ := first_true sorted stands
    exact ⟨heard, le, cutShort_of_standing times cancels punctual timerFirst plays final
      (Nat.lt_of_le_of_lt le early)⟩

/-- A value is overwritten, and the next one, which is sent behind another one and just before the
sender hangs up, cancels although a timer goes off at the same time. -/
theorem play_cancels_if_standing_corridor :
    let session := (corridor.run "(move-forward a)").2
    let signals := [(50, Signal.send true), (50, .send false), (400, .send false),
      (400, .send true), (400, .hangUp)]
    session.replay.Reachable ∧ session.nextDeadlineIn? ≠ none ∧
      (signals.map Prod.fst).Pairwise (· ≤ ·) ∧ (400, true) ∈ standing (sent signals) ∧
      Sleep.Punctual UInt64.toNat ∧
      ∃ heard ≤ 400, CutShort session []
        ((session.beatsBefore (fun _ => true) heard corridorBeats).flatMap Beat.events)
        (session.play (fun _ => true) false signals []) := by
  intro session signals
  have reachable : session.replay.Reachable := (Reachable.run _ corridor_reachable).replay
  have pending : session.nextDeadlineIn? ≠ none := by decide +kernel
  have times : (signals.map Prod.fst).Pairwise (· ≤ ·) := by decide
  have stands : (400, true) ∈ standing (sent signals) := by decide
  have punctual : Sleep.Punctual UInt64.toNat := Sleep.punctual_toNat
  have early : 400 < 1000 - session.clock.toNat := by decide +kernel
  obtain ⟨ended, plays⟩ := corridor_plays
  obtain ⟨-, all⟩ :=
    play_cancels_if_standing reachable pending times stands punctual (fun _ => true) false []
  exact ⟨reachable, pending, times, stands, punctual, all plays rfl early⟩

/-- A value that cancels is lost: it is overwritten in the same millisecond. -/
theorem play_loses_corridor :
    Missed (corridor.run "(move-forward a)").2 [(50, .send true), (50, .send false)] 50 := by
  have reachable : (corridor.run "(move-forward a)").2.Reachable := .run _ corridor_reachable
  have next : (corridor.run "(move-forward a)").2.nextDeadlineIn? = some 100 := by decide +kernel
  exact {
    reachable
    pending := Option.ne_none_iff_exists'.2 ⟨_, next⟩
    times := by decide
    mem := by decide
    early := early_of_next reachable next (by decide)
    drained := by decide +kernel }

end Session

end BlockPuzzle
