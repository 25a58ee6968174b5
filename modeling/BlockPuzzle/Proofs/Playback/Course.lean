import BlockPuzzle.Proofs.Playback.Turn
import BlockPuzzle.Proofs.Replay.Fire

/-!
# The course of a playback

The playbacks that the turns of one lead to, and what can be read off them: the events that are
delivered, each with its time (`Playback.deliveries`), and the wait in which the sender is heard
hanging up (`Playback.hangUp?`).
-/

namespace BlockPuzzle.Playback

variable {timerFirst : Nat → Bool} {p q : Playback} {due time : Nat}

/-- The playbacks that the turns of one lead to, in order. -/
def course (timerFirst : Nat → Bool) (p : Playback) : List Playback :=
  match _h : p.turn timerFirst with
  | .ended _ _ => []
  | .next q => q :: q.course timerFirst
termination_by p.load
decreasing_by exact load_turn_lt _h

/-- The events that have been delivered since, oldest first. -/
def news (p q : Playback) : List Event :=
  (q.delivered.take (q.delivered.length - p.delivered.length)).reverse

/-- The events that are delivered on a course, each with the time at which it is. -/
def deliveries (p : Playback) : List Playback → List (Nat × Event)
  | [] => []
  | q :: course => (p.news q).map (fun event => (q.time, event)) ++ q.deliveries course

/-- When the sender is heard hanging up, if it is: the time at which that wait began, and the time
at which it was cut short. -/
def hangUp? (p : Playback) : List Playback → Option (Nat × Nat)
  | [] => none
  | q :: course => if p.listening = q.listening then q.hangUp? course else some (p.time, q.time)

/-! ## Turns and runs -/

/-- A turn that does not end a playback leaves its run as it is. -/
lemma run_of_next (turn : p.turn timerFirst = .next q) : p.run timerFirst = q.run timerFirst := by
  rw [run.eq_def]
  split
  · next ended => cases turn.symm.trans ended
  · next next =>
    cases turn.symm.trans next
    rfl

/-- A turn that ends a playback ends its run. -/
lemma run_of_ended {outcome : Outcome} (turn : p.turn timerFirst = .ended outcome q) :
    p.run timerFirst = (outcome, q) := by
  rw [run.eq_def]
  split
  · next ended =>
    cases turn.symm.trans ended
    rfl
  · next next => cases turn.symm.trans next

/-- A turn that does not end a playback is the first of its course. -/
lemma course_of_next (turn : p.turn timerFirst = .next q) :
    p.course timerFirst = q :: q.course timerFirst := by
  rw [course.eq_def]
  split
  · next ended => cases turn.symm.trans ended
  · next next =>
    cases turn.symm.trans next
    rfl

/-- A turn that ends a playback has no course behind it. -/
lemma course_of_ended {outcome : Outcome} (turn : p.turn timerFirst = .ended outcome q) :
    p.course timerFirst = [] := by
  rw [course.eq_def]
  split
  · rfl
  · next next => cases turn.symm.trans next

/-! ## Deliveries -/

/-- What has been put on top of the delivered events is the news. -/
lemma news_of_append {events : List Event}
    (delivered : q.delivered = events.reverse ++ p.delivered) : p.news q = events := by
  unfold news
  rw [delivered, List.length_append, Nat.add_sub_cancel, List.take_left, List.reverse_reverse]

/-- A turn only adds to what has been delivered. -/
lemma delivered_of_next (turn : p.turn timerFirst = .next q) : p.delivered <:+ q.delivered := by
  obtain ⟨delay, -, ⟨elapsed, -, moved, -⟩ | ⟨time, -, rfl⟩⟩ := next_cases turn
  · rw [moved.delivered]
    exact (Performance.spared_advance _ (p.session.performance p.delivered)).delivered
  · exact List.suffix_refl _

/-- Nor does the end of a playback change it. -/
lemma delivered_of_ended {outcome : Outcome} (turn : p.turn timerFirst = .ended outcome q) :
    q.delivered = p.delivered := by
  cases turn_cases turn with
  | drained => rfl
  | cancelled => rfl

/-- What is delivered on the course of a playback is what the playback delivers. -/
lemma delivered_run (timerFirst : Nat → Bool) (p : Playback) :
    (p.run timerFirst).2.delivered.reverse =
      p.delivered.reverse ++ (p.deliveries (p.course timerFirst)).map Prod.snd := by
  fun_induction run timerFirst p with
  | case1 p outcome q turn =>
    rw [course_of_ended turn, delivered_of_ended turn]
    exact (List.append_nil _).symm
  | case2 p q turn ih =>
    obtain ⟨events, delivered⟩ := delivered_of_next turn
    have news : p.news q = events.reverse := by
      apply news_of_append
      rw [List.reverse_reverse, delivered]
    rw [ih, course_of_next turn, deliveries, news, List.map_append, List.map_map, ← delivered,
      List.reverse_append, List.append_assoc]
    congr 2
    exact (List.map_id' _).symm

/-! ## Hanging up -/

/-- The wait that is cut short is still to come. -/
lemma hangUp?_within {start heard : Nat}
    (hangUp : p.hangUp? (p.course timerFirst) = some (start, heard)) :
    p.time ≤ start ∧ start ≤ heard := by
  fun_induction course timerFirst p with
  | case1 => cases hangUp
  | case2 p q turn ih =>
    have le := time_le_of_next turn
    by_cases listening : p.listening = q.listening
    · obtain ⟨later, within⟩ := ih ((if_pos listening).symm.trans hangUp)
      exact ⟨Nat.le_trans le later, within⟩
    · cases (if_neg listening).symm.trans hangUp
      exact ⟨Nat.le_refl _, le⟩

/-- A playback that does not listen hears nothing. -/
lemma hangUp?_of_deaf (deaf : p.listening = false) : p.hangUp? (p.course timerFirst) = none := by
  fun_induction course timerFirst p with
  | case1 => rfl
  | case2 p q turn ih =>
    have silent : ∀ {due time}, ¬ p.Hears timerFirst due time := fun hears => by
      cases hears.listening.symm.trans deaf
    cases turn_cases turn with
    | goesOff => exact (if_pos rfl).trans (ih deaf)
    | woken _ hears => exact absurd hears silent
    | hungUp _ hears => exact absurd hears silent

/-- The sender has not hung up and is not going to. -/
structure Attached (p : Playback) : Prop where
  channel : p.channel.closed = false
  signals : ∀ signal ∈ p.signals, signal.2 ≠ .hangUp

/-- Only a hang-up closes the channel. -/
lemma closed_receive {channel : Channel} {signal : Signal} (attached : signal ≠ .hangUp) :
    (channel.receive signal).closed = channel.closed := by
  unfold Channel.receive
  split
  · rfl
  · cases signal with
    | send => rfl
    | hangUp => exact absurd rfl attached

/-- Waiting does not make the sender hang up. -/
lemma Attached.waitUntil (attached : Attached p) (time : Nat) : Attached (p.waitUntil time) where
  channel := channel_waitUntil (P := fun channel => channel.closed = false) time attached.channel
    fun closed mem => (closed_receive (attached.signals _ mem)).trans closed
  signals := fun signal mem => attached.signals signal (List.dropWhile_suffix _ |>.subset mem)

/-- What is heard then is a value. -/
lemma Attached.unseen (attached : Attached p) (hears : p.Hears timerFirst due time) :
    (p.waitUntil time).channel.unseen = true := by
  have heard := hears.1
  unfold heardAt? at heard
  rw [if_pos hears.listening] at heard
  by_cases speaks : p.channel.speaks = true
  · apply unseen_foldl_receive
    simpa [Channel.speaks, attached.channel] using speaks
  · rw [if_neg speaks] at heard
    obtain ⟨signal, first, rfl⟩ := Option.map_eq_some_iff.1 heard
    obtain ⟨others, signals⟩ := List.head?_eq_some_iff.1 first
    have value := attached.signals signal (signals ▸ List.mem_cons_self)
    change (List.foldl _ p.channel (p.signals.takeWhile _)).unseen = true
    rw [signals, List.takeWhile_cons_of_pos (by exact decide_eq_true (Nat.le_max_right _ _)),
      List.foldl_cons]
    -- the first signal is a value, and later ones leave the channel unseen
    apply unseen_foldl_receive
    unfold Channel.receive
    rw [attached.channel, if_neg Bool.false_ne_true]
    split
    · rfl
    · next hangUp => exact absurd hangUp value

/-- A sender that stays attached is never heard hanging up. -/
lemma hangUp?_of_attached (attached : Attached p) :
    p.hangUp? (p.course timerFirst) = none := by
  fun_induction course timerFirst p with
  | case1 => rfl
  | case2 p q turn ih =>
    cases turn_cases turn with
    | goesOff => exact (if_pos rfl).trans (ih ⟨attached.channel, attached.signals⟩)
    | @woken delay time =>
      have attached' := attached.waitUntil time
      exact (if_pos rfl).trans (ih ⟨attached'.channel, attached'.signals⟩)
    | hungUp _ hears seen => cases seen.symm.trans (attached.unseen hears)

end BlockPuzzle.Playback
