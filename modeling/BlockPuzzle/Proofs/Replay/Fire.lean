import Mathlib.Tactic.Lemma
import BlockPuzzle.Replay.Basic

/-!
# Firing

What a timer does when it fires: `Performance.fire_cases` says that it schedules one task or
announces the end, after changes that spare most of the replay and of its attempt.
`Performance.step_of_none` and `Performance.step_of_some` are the equations of the task that takes
entries from the journal.
-/

namespace BlockPuzzle.Performance

/-! ## What firing spares -/

/-- What a replay at work never changes, and that it only adds to what it has delivered. -/
structure Spared (p q : Performance) : Prop where
  generation : q.replay.generation = p.replay.generation
  cadence : q.replay.cadence = p.replay.cadence
  dedupe : q.replay.dedupe = p.replay.dedupe
  logical : q.attempt.logical = p.attempt.logical
  verdict : q.attempt.verdict = p.attempt.verdict
  sensed : q.attempt.marks.sensed = p.attempt.marks.sensed
  wipes : q.attempt.marks.wipes = p.attempt.marks.wipes
  delivered : p.delivered <:+ q.delivered

variable {p q r : Performance}

/-- Nothing changes when nothing is done. -/
lemma Spared.refl (p : Performance) : Spared p p :=
  ⟨rfl, rfl, rfl, rfl, rfl, rfl, rfl, List.suffix_refl _⟩

/-- What is spared twice is spared. -/
lemma Spared.trans (first : Spared p q) (second : Spared q r) : Spared p r where
  generation := second.generation.trans first.generation
  cadence := second.cadence.trans first.cadence
  dedupe := second.dedupe.trans first.dedupe
  logical := second.logical.trans first.logical
  verdict := second.verdict.trans first.verdict
  sensed := second.sensed.trans first.sensed
  wipes := second.wipes.trans first.wipes
  delivered := first.delivered.trans second.delivered

/-- The delays of a replay stay as they are. -/
lemma Spared.delays (spared : Spared p q) : q.replay.delays = p.replay.delays := by
  unfold Replay.delays
  rw [spared.cadence]

/-- What showing an entry leaves as it is. -/
structure Unmoved (p q : Performance) : Prop extends Spared p q where
  queue : q.replay.queue = p.replay.queue
  stage : q.replay.stage = p.replay.stage
  journal : q.attempt.journal = p.attempt.journal

/-- A block that is animated is marked for that phase. -/
lemma animated_mark (marks : Marks) (block : BlockId) :
    (marks.mark .animate block).animated = marks.animated.insert block :=
  marks.blocks_mark .animate block .animate

/-- Showing an entry changes no timers. -/
lemma unmoved_present (p : Performance) (entry : Entry) : Unmoved p (p.present entry) := by
  have sensed := p.attempt.marks.blocks_mark .animate entry.block .sense
  have wipes := p.attempt.marks.wipes_mark .animate entry.block
  unfold present
  by_cases skip : (p.attempt.marks.seen .animate entry.block && p.replay.dedupe) = true
  · simp only [if_pos skip]
    exact ⟨⟨rfl, rfl, rfl, rfl, rfl, sensed, wipes, List.suffix_refl _⟩, rfl, rfl, rfl⟩
  · simp only [if_neg skip]
    exact ⟨⟨rfl, rfl, rfl, rfl, rfl, sensed, wipes, List.suffix_append [_, _] _⟩, rfl, rfl, rfl⟩

/-- More may have been delivered, but no end. -/
def Unfinished (p q : Performance) : Prop :=
  ∃ events, q.delivered = events ++ p.delivered ∧ ∀ verdict, .done verdict ∉ events

/-- Nothing delivered is no end. -/
lemma Unfinished.refl (p : Performance) : Unfinished p p :=
  ⟨[], rfl, fun _ => List.not_mem_nil⟩

/-- An entry that is presented is no end. -/
lemma unfinished_present (p : Performance) (entry : Entry) : Unfinished p (p.present entry) := by
  unfold present
  by_cases skip : (p.attempt.marks.seen .animate entry.block && p.replay.dedupe) = true
  · simp only [if_pos skip]
    exact .refl p
  · simp only [if_neg skip]
    exact ⟨[_, _], rfl, by simp⟩

/-! ## Tasks -/

/-- A timer is about to fire. -/
def atWork (p : Performance) : Performance :=
  { p with replay := { p.replay with stage := .animating } }

/-- A timer does its task. -/
lemma fire_eq (p : Performance) (timer : Timer) : p.fire timer =
    match timer.task with
    | .step => p.atWork.step timer.deadline
    | .victory index => p.atWork.celebrate timer.deadline index
    | .complete => p.atWork.complete := rfl

/-- The first entry has been taken from the journal. -/
def take (p : Performance) (journal : Journal) : Performance :=
  { p with
    attempt := { p.attempt with journal }
    replay := { p.replay with taken := p.replay.taken + 1 } }

/-- A step with no entry left schedules the tail. -/
lemma step_of_none (empty : p.attempt.journal.pop? = none) (deadline : Millis) :
    p.step deadline = p.scheduleTail deadline := by
  unfold step
  rw [empty]

/-- A step shows the first entry, and then schedules the next step or, behind the last one, the
tail. -/
lemma step_of_some {entry : Entry} {journal : Journal}
    (first : p.attempt.journal.pop? = some (entry, journal)) (deadline : Millis) :
    p.step deadline =
      if journal.isEmpty then ((p.take journal).present entry).scheduleTail deadline
      else ((p.take journal).present entry).schedule (deadline.after p.replay.delays.step)
        .step := by
  have unmoved := unmoved_present (p.take journal) entry
  have left : ((p.take journal).present entry).attempt.journal = journal := unmoved.journal
  have delays : ((p.take journal).present entry).replay.delays = p.replay.delays :=
    unmoved.delays
  unfold step
  rw [first]
  change (if ((p.take journal).present entry).attempt.journal.isEmpty then
      ((p.take journal).present entry).scheduleTail deadline
    else ((p.take journal).present entry).schedule
      (deadline.after ((p.take journal).present entry).replay.delays.step) .step) = _
  rw [left, delays]

/-- The tail is a task that is scheduled, for later. -/
lemma scheduleTail_eq (p : Performance) (deadline : Millis) :
    ∃ later task, deadline ≤ later ∧ p.scheduleTail deadline = p.schedule later task := by
  unfold scheduleTail
  by_cases success : p.attempt.verdict = .success
  · exact ⟨_, _, Millis.le_after _ _, if_pos success⟩
  · exact ⟨_, _, Millis.le_after _ _, if_neg success⟩

/-- What a timer that fires has done before it schedules a task or announces the end: at most it has
shown an entry or drawn a picture. -/
structure Served (p q : Performance) : Prop extends Spared p q where
  queue : q.replay.queue = p.replay.queue
  stage : q.replay.stage = .animating
  unfinished : Unfinished p q

/-- All that a firing timer can do: it takes and shows an entry or draws a picture, or does nothing
of the kind, and then schedules one task for later or announces the end. -/
theorem fire_cases (p : Performance) (timer : Timer) :
    ∃ q, Served p q ∧
      ((∃ later task, timer.deadline ≤ later ∧ p.fire timer = q.schedule later task) ∨
        p.fire timer = q.complete) := by
  have spared : Spared p p.atWork := ⟨rfl, rfl, rfl, rfl, rfl, rfl, rfl, List.suffix_refl _⟩
  rw [fire_eq]
  cases timer.task with
  | step =>
    simp only
    cases first : p.atWork.attempt.journal.pop? with
    | none =>
      rw [step_of_none first]
      exact ⟨_, ⟨spared, rfl, rfl, .refl p⟩, .inl (p.atWork.scheduleTail_eq _)⟩
    | some taken =>
      have takes : Spared p.atWork (p.atWork.take taken.2) :=
        ⟨rfl, rfl, rfl, rfl, rfl, rfl, rfl, List.suffix_refl _⟩
      have unmoved := unmoved_present (p.atWork.take taken.2) taken.1
      have served : Served p ((p.atWork.take taken.2).present taken.1) :=
        ⟨spared.trans (takes.trans unmoved.toSpared), unmoved.queue, unmoved.stage,
          unfinished_present (p.atWork.take taken.2) taken.1⟩
      refine ⟨_, served, .inl ?_⟩
      rw [step_of_some first]
      by_cases last : taken.2.isEmpty = true
      · rw [if_pos last]
        exact scheduleTail_eq _ _
      · rw [if_neg last]
        exact ⟨_, _, Millis.le_after _ _, rfl⟩
  | victory index =>
    refine ⟨p.atWork.deliver (.render p.attempt.display (.victory index)),
      ⟨⟨rfl, rfl, rfl, rfl, rfl, rfl, rfl, List.suffix_cons _ _⟩, rfl, rfl, [_], rfl, by simp⟩, ?_⟩
    simp only [celebrate]
    by_cases more : index + 1 < victoryPictures
    · rw [if_pos more]
      exact .inl ⟨_, _, Millis.le_after _ _, rfl⟩
    · rw [if_neg more]
      exact .inr rfl
  | complete => exact ⟨_, ⟨spared, rfl, rfl, .refl p⟩, .inr rfl⟩

/-- A timer that fires spares what a replay at work never changes. -/
lemma spared_fire (p : Performance) (timer : Timer) : Spared p (p.fire timer) := by
  obtain ⟨q, served, ⟨later, task, -, fired⟩ | fired⟩ := p.fire_cases timer
  · rw [fired]
    exact served.toSpared.trans ⟨rfl, rfl, rfl, rfl, rfl, rfl, rfl, List.suffix_refl _⟩
  · rw [fired]
    exact served.toSpared.trans ⟨rfl, rfl, rfl, rfl, rfl, rfl, rfl, List.suffix_cons _ _⟩

/-- A timer that does not drain a replay announces no end. -/
lemma unfinished_fire {timer : Timer} (undrained : (p.fire timer).replay.stage ≠ .drained) :
    Unfinished p (p.fire timer) := by
  obtain ⟨q, served, ⟨later, task, -, fired⟩ | fired⟩ := p.fire_cases timer
  · rw [fired]
    exact served.unfinished
  · rw [fired] at undrained
    exact absurd rfl undrained

/-- A timer that is taken from the queue changes nothing but the queue. -/
lemma spared_dequeue (p : Performance) (others : List Timer) : Spared p (p.dequeue others) :=
  ⟨rfl, rfl, rfl, rfl, rfl, rfl, rfl, List.suffix_refl _⟩

/-- What a timer that fires alone leaves: the next one, no earlier than itself, or the end. -/
lemma fire_leaves (empty : p.replay.queue = []) (timer : Timer) :
    (∃ next, (p.fire timer).replay.queue = [next] ∧
        next.generation = (p.fire timer).replay.generation ∧ timer.deadline ≤ next.deadline ∧
        (p.fire timer).replay.stage = .animating) ∨
      ((p.fire timer).replay.queue = [] ∧ (p.fire timer).replay.stage = .drained) := by
  obtain ⟨q, served, ⟨later, task, le, fired⟩ | fired⟩ := p.fire_cases timer
  · rw [fired]
    refine .inl ⟨⟨later, q.replay.nextSerial, q.replay.generation, task⟩, ?_, rfl, le, served.stage⟩
    simp only [schedule, Replay.schedule, served.queue, empty, enqueue]
  · rw [fired]
    exact .inr ⟨served.queue.trans empty, rfl⟩

/-! ## Firing all that is due -/

/-- Without timers nothing fires. -/
lemma fireDue_of_nil (empty : p.replay.queue = []) (now : Millis) (fired : Nat) :
    fireDue now fired p = (fired, p) := by
  rw [fireDue.eq_def]
  split
  · rfl
  · next queue => cases empty.symm.trans queue

/-- The first timer fires if it is due and of the present generation, is dropped if it is only due,
and otherwise keeps all others waiting. -/
lemma fireDue_of_cons {timer : Timer} {others : List Timer}
    (queue : p.replay.queue = timer :: others) (now : Millis) (fired : Nat) :
    fireDue now fired p =
      if timer.deadline ≤ now then
        if timer.generation = p.replay.generation then
          fireDue now (fired + 1) ((p.dequeue others).fire timer)
        else fireDue now fired (p.dequeue others)
      else (fired, p) := by
  rw [fireDue.eq_def]
  split
  · next empty => cases queue.symm.trans empty
  · next first rest queue' =>
    obtain ⟨rfl, rfl⟩ := List.cons.inj (queue.symm.trans queue')
    rfl

/-- Between advances a replay is not at work, and then an advance to an instant before all deadlines
does nothing. -/
lemma advance_early {now : Millis} (still : p.replay.stage ≠ .animating)
    (early : ∀ deadline, p.replay.nextDeadline? = some deadline → ¬ deadline ≤ now) :
    p.advance now = (0, p) := by
  have waits : fireDue now 0 p = (0, p) := by
    cases queue : p.replay.queue with
    | nil => exact fireDue_of_nil queue now 0
    | cons timer others =>
      rw [fireDue_of_cons queue]
      exact if_neg (early timer.deadline (by simp [Replay.nextDeadline?, queue]))
  simp only [advance, waits, settle, if_neg still]

/-- An advance spares what a timer does. -/
lemma spared_advance (now : Millis) (p : Performance) : Spared p (p.advance now).2 := by
  have firing : ∀ fired p, Spared p (fireDue now fired p).2 := by
    intro fired p
    fun_induction fireDue now fired p with
    | case1 => exact .refl _
    | case2 fired p timer others _ _ _ ih =>
      exact ((spared_dequeue p others).trans (spared_fire _ timer)).trans ih
    | case3 fired p timer others _ _ _ ih => exact (spared_dequeue p others).trans ih
    | case4 => exact .refl _
  refine (firing 0 p).trans ?_
  simp only [advance, settle]
  split
  · exact ⟨rfl, rfl, rfl, rfl, rfl, rfl, rfl, List.suffix_refl _⟩
  · exact .refl _

end BlockPuzzle.Performance
