import BlockPuzzle.Proofs.Replay.Steady

/-!
# The life of a replay

A replay is asked to start, to advance and to stop, each time perhaps on behalf of another attempt. A
`Replay.Chronicle` keeps beside the replay what has happened since it last started. Whatever is asked
for, the chronicle is lawful (`Replay.chronicle_lawful`): there is one timer as long as something is
left to do and no timer otherwise, no timer is ever stale, and the end is the last thing shown.
-/

namespace BlockPuzzle

namespace Performance

variable {now : Millis} {p q r : Performance}

/-! ## During an advance -/

/-- What a replay at work comes to while timers that are due are taken from its queue: a timer of the
present generation fires, any other one is dropped. -/
inductive Comes (now : Millis) (p : Performance) : Performance → Prop where
  | rest :
    Comes now p p
  | fired {q timer others} :
    Comes now p q →
    q.replay.queue = timer :: others →
    timer.deadline ≤ now →
    timer.generation = q.replay.generation →
    Comes now p ((q.dequeue others).fire timer)
  | dropped {q timer others} :
    Comes now p q →
    q.replay.queue = timer :: others →
    timer.deadline ≤ now →
    timer.generation ≠ q.replay.generation →
    Comes now p (q.dequeue others)

/-- Firing all that is due comes to where it ends. -/
lemma Comes.fireDue (comes : Comes now p q) (fired : Nat) :
    Comes now p (fireDue now fired q).2 := by
  fun_induction Performance.fireDue now fired q with
  | case1 => exact comes
  | case2 fired q timer others queue due current ih => exact ih (comes.fired queue due current)
  | case3 fired q timer others queue due stale ih => exact ih (comes.dropped queue due stale)
  | case4 => exact comes

/-- A steady replay is steady at every moment of an advance. -/
lemma Comes.steady (comes : Comes now p q) (steady : p.replay.Steady) : q.replay.Steady := by
  induction comes with
  | rest => exact steady
  | @fired q timer others _ queue _ _ ih =>
    obtain ⟨rfl, -⟩ := ih.single_of_cons queue
    exact steady_fire rfl timer
  | dropped _ queue _ stale ih => exact absurd (ih.single_of_cons queue).2 stale

/-- No end is announced in events of which neither part announces one. -/
lemma not_done_append {events others : List Event} (none : ∀ verdict, .done verdict ∉ events)
    (none' : ∀ verdict, .done verdict ∉ others) : ∀ verdict, .done verdict ∉ events ++ others := by
  intro verdict mem
  rcases List.mem_append.1 mem with mem | mem
  · exact none verdict mem
  · exact none' verdict mem

/-- More has been delivered, and the end behind all of it. -/
def Finished (p q : Performance) : Prop :=
  ∃ events verdict, q.delivered = .done verdict :: events ++ p.delivered ∧
    ∀ verdict, .done verdict ∉ events

/-- Two stretches without an end make one without an end. -/
lemma Unfinished.trans (first : Unfinished p q) (second : Unfinished q r) : Unfinished p r := by
  obtain ⟨events, shown, none⟩ := first
  obtain ⟨events', shown', none'⟩ := second
  refine ⟨events' ++ events, ?_, not_done_append none' none⟩
  rw [shown', shown, List.append_assoc]

/-- An end behind what has no end is the only one. -/
lemma Unfinished.finished (first : Unfinished p q) (second : Finished q r) : Finished p r := by
  obtain ⟨events, shown, none⟩ := first
  obtain ⟨events', verdict, shown', none'⟩ := second
  refine ⟨events' ++ events, verdict, ?_, not_done_append none' none⟩
  rw [shown', shown, List.cons_append, List.cons_append, List.append_assoc]

/-- How far timers that fired have led: the replay is at work and has announced no end, or it is
drained and just has. -/
inductive Onward (p q : Performance) : Prop where
  | working :
    q.replay.stage = .animating →
    Unfinished p q →
    Onward p q
  | drained :
    q.replay.stage = .drained →
    Finished p q →
    Onward p q

/-- What has led on without an end leads as far as what follows. -/
lemma Unfinished.onward (first : Unfinished p q) (second : Onward q r) : Onward p r := by
  cases second with
  | working stage unfinished => exact .working stage (first.trans unfinished)
  | drained stage finished => exact .drained stage (first.finished finished)

/-- Every timer leads onward. -/
lemma onward_fire (p : Performance) (timer : Timer) : Onward p (p.fire timer) := by
  obtain ⟨q, served, ⟨later, task, -, fired⟩ | fired⟩ := p.fire_cases timer
  · rw [fired]
    exact .working served.stage served.unfinished
  · rw [fired]
    have finished : Finished q q.complete := ⟨[], _, rfl, fun _ => List.not_mem_nil⟩
    exact .drained rfl (served.unfinished.finished finished)

/-- So do all timers that fire after it. -/
lemma onward_fireDue (now : Millis) (fired : Nat) (steady : p.replay.Steady)
    (working : p.replay.stage = .animating) : Onward p (fireDue now fired p).2 := by
  fun_induction fireDue now fired p with
  | case1 fired p => exact .working working (.refl p)
  | case2 fired p timer others queue due current ih =>
    obtain ⟨rfl, -⟩ := steady.single_of_cons queue
    have steady := steady_fire (p := p.dequeue []) rfl timer
    cases onward_fire (p.dequeue []) timer with
    | working stage unfinished => exact Unfinished.onward unfinished (ih steady stage)
    | drained stage finished =>
      -- nothing is left to fire behind the end
      rw [fireDue_of_nil (steady.queue_of_drained stage)]
      exact .drained stage finished
  | case3 fired p timer others queue due stale ih =>
    exact absurd (steady.single_of_cons queue).2 stale
  | case4 fired p => exact .working working (.refl p)

/-- All that an advance of a steady replay can come to: nothing happens, or timers fire, and then the
replay waits or is drained. -/
theorem advance_cases (now : Millis) (steady : p.replay.Steady)
    (still : p.replay.stage ≠ .animating) :
    p.advance now = (0, p) ∨
      ((p.advance now).2.replay.stage = .waiting ∧ Unfinished p (p.advance now).2) ∨
      ((p.advance now).2.replay.stage = .drained ∧ Finished p (p.advance now).2) := by
  by_cases early : ∀ deadline, p.replay.nextDeadline? = some deadline → ¬ deadline ≤ now
  · exact .inl (advance_early still early)
  · right
    cases queue : p.replay.queue with
    | nil => exact absurd (by simp [Replay.nextDeadline?, queue]) early
    | cons timer others =>
      have due : timer.deadline ≤ now := by simpa [Replay.nextDeadline?, queue] using early
      obtain ⟨rfl, current⟩ := steady.single_of_cons queue
      have steady := steady_fire (p := p.dequeue []) rfl timer
      -- the first timer puts the replay to work, whatever fires after it
      have onward : Onward p (fireDue now 0 p).2 := by
        rw [fireDue_of_cons queue, if_pos due, if_pos current]
        cases onward_fire (p.dequeue []) timer with
        | working stage unfinished =>
          exact Unfinished.onward unfinished (onward_fireDue now (0 + 1) steady stage)
        | drained stage finished =>
          rw [fireDue_of_nil (steady.queue_of_drained stage)]
          exact .drained stage finished
      simp only [advance, settle]
      cases onward with
      | working stage unfinished =>
        rw [if_pos stage]
        exact .inl ⟨rfl, unfinished⟩
      | drained stage finished =>
        rw [if_neg (by rw [stage]; exact Stage.noConfusion)]
        exact .inr ⟨stage, finished⟩

end Performance

namespace Replay

/-! ## Requests -/

/-- What a replay can be asked for. Every request brings the attempt that it is about. -/
inductive Request where
  | start (attempt : Attempt) (cadence : Cadence) (now : Millis)
  | advance (attempt : Attempt) (now : Millis)
  | cancel

/-- A replay, the number of its starts, and what has happened since the last one: how many timers have
fired, and the events delivered, oldest first. -/
structure Chronicle where
  replay : Replay
  starts : Nat
  fired : Nat
  events : List Event

namespace Chronicle

/-- The replay does what it is asked for. A start that is refused is no start. -/
def enter (c : Chronicle) : Request → Chronicle
  | .start attempt cadence now =>
    match c.replay.start attempt cadence now with
    | .ok started => ⟨started, c.starts + 1, 0, []⟩
    | .error _ => c
  | .advance attempt now =>
    let (fired, p) := Performance.advance now ⟨c.replay, attempt, []⟩
    { c with
      replay := p.replay
      fired := c.fired + fired
      events := c.events ++ p.delivered.reverse }
  | .cancel => { c with replay := c.replay.cancel }

/-- A new replay that is asked for one thing after the other. -/
def of (dedupe : Bool) (requests : List Request) : Chronicle :=
  requests.foldl enter ⟨.idle dedupe, 0, 0, []⟩

/-- What holds of a replay whatever it was asked for. -/
structure Lawful (c : Chronicle) : Prop where
  still : c.replay.stage ≠ .animating
  busy : c.replay.stage = .scheduled ∨ c.replay.stage = .waiting →
    ∃ timer, c.replay.queue = [timer] ∧ timer.generation = c.replay.generation
  resting : c.replay.stage = .idle ∨ c.replay.stage = .drained → c.replay.queue = []
  current : ∀ (attempt : Attempt) (now : Millis), let p : Performance := ⟨c.replay, attempt, []⟩
    p.Comes now (p.fireDue now 0).2 ∧
      ∀ q, p.Comes now q → ∀ timer ∈ q.replay.queue, timer.generation = q.replay.generation
  starts_iff : ∀ attempt cadence now,
    (∃ started, c.replay.start attempt cadence now = .ok started) ↔
      c.replay.stage = .idle ∧ attempt.verdict ≠ .unset
  refused : ∀ attempt cadence now e, c.replay.start attempt cadence now = .error e →
    c.enter (.start attempt cadence now) = c
  scheduled : c.replay.stage = .scheduled → 0 < c.starts ∧ c.fired = 0
  drained : c.replay.stage = .drained → 0 < c.starts ∧ ∃ verdict, .done verdict ∈ c.events
  last : ∀ earlier verdict later, c.events = earlier ++ .done verdict :: later → later = []

/-! ## What requests keep -/

/-- What has been delivered when a replay is at some stage: only a replay that has come to rest has
announced the end, behind all else. -/
inductive Told (stage : Stage) (events : List Event) : Prop where
  | unfinished :
    stage ≠ .drained →
    (∀ verdict, .done verdict ∉ events) →
    Told stage events
  | finished {shown verdict} :
    stage = .idle ∨ stage = .drained →
    events = shown ++ [.done verdict] →
    (∀ verdict, .done verdict ∉ shown) →
    Told stage events

/-- What every request keeps. -/
structure Kept (c : Chronicle) : Prop where
  steady : c.replay.Steady
  still : c.replay.stage ≠ .animating
  begun : c.replay.stage ≠ .idle → 0 < c.starts
  scheduled : c.replay.stage = .scheduled → c.fired = 0
  told : Told c.replay.stage c.events

variable {c : Chronicle}

/-- A replay that rests has no timer. -/
lemma Kept.queue_of_resting (kept : c.Kept)
    (resting : c.replay.stage = .idle ∨ c.replay.stage = .drained) : c.replay.queue = [] := by
  cases resting with
  | inl idle => exact kept.steady.queue_of_idle idle
  | inr drained => exact kept.steady.queue_of_drained drained

/-- An advance in which no timer fires changes nothing. -/
lemma enter_advance_of_none {attempt : Attempt} {now : Millis}
    (none : Performance.advance now ⟨c.replay, attempt, []⟩ = (0, ⟨c.replay, attempt, []⟩)) :
    c.enter (.advance attempt now) = c := by
  simp [enter, none]

/-- An advance of a replay that rests changes nothing. -/
lemma Kept.advance_of_resting (kept : c.Kept)
    (resting : c.replay.stage = .idle ∨ c.replay.stage = .drained) (attempt : Attempt)
    (now : Millis) : c.enter (.advance attempt now) = c := by
  apply enter_advance_of_none
  apply Performance.advance_early kept.still
  simp [nextDeadline?, kept.queue_of_resting resting]

/-- A start that is not refused begins a new count. -/
lemma Kept.start (kept : c.Kept) (attempt : Attempt) (cadence : Cadence) (now : Millis) :
    (c.enter (.start attempt cadence now)).Kept := by
  cases started : c.replay.start attempt cadence now with
  | error e =>
    simp only [enter, started]
    exact kept
  | ok replay =>
    obtain ⟨idle, settled⟩ := start_inv started
    simp only [enter, start_of_idle idle settled, kept.steady.queue_of_idle idle]
    exact {
      steady := .pending _ rfl rfl Stage.noConfusion Stage.noConfusion
      still := Stage.noConfusion
      begun := fun _ => Nat.succ_pos c.starts
      scheduled := fun _ => rfl
      told := .unfinished Stage.noConfusion fun _ => List.not_mem_nil }

/-- An advance that fires timers shows more, and the end if it drains the replay. -/
lemma Kept.advance (kept : c.Kept) (attempt : Attempt) (now : Millis) :
    (c.enter (.advance attempt now)).Kept := by
  by_cases resting : c.replay.stage = .idle ∨ c.replay.stage = .drained
  · rw [kept.advance_of_resting resting]
    exact kept
  · have unfinished : ∀ verdict, .done verdict ∉ c.events := by
      cases kept.told with
      | unfinished _ none => exact none
      | finished rests => exact absurd rests resting
    have begun : 0 < c.starts := kept.begun fun idle => resting (.inl idle)
    have delivered : ∀ {events : List Event}, (∀ verdict, .done verdict ∉ events) →
        ∀ verdict, .done verdict ∉ c.events ++ events.reverse := by
      intro events none
      apply Performance.not_done_append unfinished
      simpa using none
    have steady : (c.enter (.advance attempt now)).replay.Steady :=
      Performance.steady_settle (Performance.steady_fireDue now 0 kept.steady)
    obtain none | ⟨stage, events, shown, none⟩ | ⟨stage, events, verdict, shown, none⟩ :=
      Performance.advance_cases (p := ⟨c.replay, attempt, []⟩) now kept.steady kept.still
    · rw [enter_advance_of_none none]
      exact kept
    · have stage : (c.enter (.advance attempt now)).replay.stage = .waiting := stage
      have told : (c.enter (.advance attempt now)).events = c.events ++ events.reverse := by
        simp [enter, shown]
      exact {
        steady
        still := by simp [stage]
        begun := fun _ => begun
        scheduled := by simp [stage]
        told := by
          rw [told, stage]
          exact .unfinished Stage.noConfusion (delivered none) }
    · have stage : (c.enter (.advance attempt now)).replay.stage = .drained := stage
      have told : (c.enter (.advance attempt now)).events =
          c.events ++ events.reverse ++ [.done verdict] := by
        simp [enter, shown]
      exact {
        steady
        still := by simp [stage]
        begun := fun _ => begun
        scheduled := by simp [stage]
        told := .finished (.inr stage) told (delivered none) }

/-- A replay that is cancelled rests. -/
lemma Kept.cancel (kept : c.Kept) : (c.enter .cancel).Kept where
  steady := .idle rfl rfl
  still := Stage.noConfusion
  begun := fun busy => absurd rfl busy
  scheduled := Stage.noConfusion
  told := by
    show Told .idle c.events
    cases kept.told with
    | unfinished _ none => exact .unfinished Stage.noConfusion none
    | finished _ shown none => exact .finished (.inl rfl) shown none

/-- What a replay keeps, it keeps when it is asked for one thing more. -/
lemma Kept.enter (kept : c.Kept) (request : Request) : (c.enter request).Kept := by
  cases request with
  | start attempt cadence now => exact kept.start attempt cadence now
  | advance attempt now => exact kept.advance attempt now
  | cancel => exact kept.cancel

/-- Whatever a replay is asked for, all this is kept. -/
lemma Kept.foldl (kept : c.Kept) (requests : List Request) :
    (requests.foldl Chronicle.enter c).Kept := by
  induction requests generalizing c with
  | nil => exact kept
  | cons request requests ih => exact ih (kept.enter request)

/-- A new replay keeps it, whatever it is asked for. -/
lemma kept_of (dedupe : Bool) (requests : List Request) : (of dedupe requests).Kept := by
  apply Kept.foldl
  exact {
    steady := .idle rfl rfl
    still := Stage.noConfusion
    begun := fun busy => absurd rfl busy
    scheduled := Stage.noConfusion
    told := .unfinished Stage.noConfusion fun _ => List.not_mem_nil }

/-! ## Silence -/

/-- Requests do not take starts back. -/
lemma starts_le_foldl (c : Chronicle) (requests : List Request) :
    c.starts ≤ (requests.foldl enter c).starts := by
  induction requests generalizing c with
  | nil => exact Nat.le_refl _
  | cons request requests ih =>
    apply Nat.le_trans _ (ih (c.enter request))
    cases request with
    | start attempt cadence now =>
      simp only [enter]
      cases c.replay.start attempt cadence now with
      | ok started => exact Nat.le_succ _
      | error e => exact Nat.le_refl _
    | advance attempt now => exact Nat.le_refl _
    | cancel => exact Nat.le_refl _

/-- A replay that is idle delivers nothing until it starts again. -/
lemma Kept.silent (kept : c.Kept) (idle : c.replay.stage = .idle) (requests : List Request)
    (unstarted : (requests.foldl Chronicle.enter c).starts = c.starts) :
    (requests.foldl Chronicle.enter c).events = c.events := by
  induction requests generalizing c with
  | nil => rfl
  | cons request requests ih =>
    rw [List.foldl_cons] at unstarted ⊢
    cases request with
    | start attempt cadence now =>
      have le := starts_le_foldl (c.enter (.start attempt cadence now)) requests
      rw [unstarted] at le
      cases started : c.replay.start attempt cadence now with
      | ok replay =>
        simp only [Chronicle.enter, started] at le
        omega
      | error e =>
        have same : c.enter (.start attempt cadence now) = c := by
          simp only [Chronicle.enter, started]
        rw [same] at unstarted ⊢
        exact ih kept idle unstarted
    | advance attempt now =>
      rw [kept.advance_of_resting (.inl idle)] at unstarted ⊢
      exact ih kept idle unstarted
    | cancel => exact ih kept.cancel rfl unstarted

/-! ## Lawfulness -/

/-- What is kept is lawful. -/
lemma Kept.lawful (kept : c.Kept) : c.Lawful where
  still := kept.still
  busy busy := by
    cases kept.steady with
    | idle _ stage => rcases busy with busy | busy <;> cases stage.symm.trans busy
    | drained _ stage => rcases busy with busy | busy <;> cases stage.symm.trans busy
    | pending timer queue current => exact ⟨timer, queue, current⟩
  resting := kept.queue_of_resting
  current attempt now := by
    refine ⟨.fireDue .rest 0, ?_⟩
    intro q comes timer mem
    cases comes.steady kept.steady with
    | idle queue => simp [queue] at mem
    | drained queue => simp [queue] at mem
    | pending single queue current =>
      rw [queue, List.mem_singleton] at mem
      rw [mem]
      exact current
  starts_iff attempt cadence now := by
    constructor
    · rintro ⟨started, start⟩
      exact start_inv start
    · rintro ⟨idle, settled⟩
      exact ⟨_, start_of_idle idle settled cadence now⟩
  refused attempt cadence now e start := by
    simp only [Chronicle.enter, start]
  scheduled scheduled :=
    ⟨kept.begun (by simp [scheduled]), kept.scheduled scheduled⟩
  drained drained := by
    refine ⟨kept.begun (by simp [drained]), ?_⟩
    cases kept.told with
    | unfinished undrained => exact absurd drained undrained
    | @finished _ verdict _ shown => exact ⟨verdict, by simp [shown]⟩
  last earlier verdict later parts := by
    cases kept.told with
    | unfinished _ none => exact absurd (by simp [parts]) (none verdict)
    | finished _ shown none =>
      obtain rfl | ⟨between, final, rfl⟩ := List.eq_nil_or_concat later
      · rfl
      · -- an end before the last event would be among what was shown before
        rw [parts, List.concat_eq_append, ← List.cons_append, ← List.append_assoc] at shown
        obtain ⟨rfl, -⟩ := List.append_inj' shown rfl
        exact absurd (by simp) (none verdict)

end Chronicle

/-- Whatever a replay is asked for, and on behalf of whichever attempts, it is lawful; and from when
it is cancelled until it starts again it delivers nothing. -/
theorem chronicle_lawful (dedupe : Bool) (requests : List Request) :
    (Chronicle.of dedupe requests).Lawful ∧
      ∀ later, (Chronicle.of dedupe (requests ++ .cancel :: later)).starts =
          (Chronicle.of dedupe requests).starts →
        (Chronicle.of dedupe (requests ++ .cancel :: later)).events =
          (Chronicle.of dedupe requests).events := by
  have kept := Chronicle.kept_of dedupe requests
  refine ⟨kept.lawful, ?_⟩
  intro later unstarted
  simp only [Chronicle.of, List.foldl_append, List.foldl_cons] at unstarted ⊢
  exact kept.cancel.silent rfl later unstarted

end Replay

end BlockPuzzle
