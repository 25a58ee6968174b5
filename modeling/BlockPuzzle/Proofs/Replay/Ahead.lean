import BlockPuzzle.Proofs.Attempt.Ahead
import BlockPuzzle.Proofs.Replay.Fire

/-!
# Hidden counts of a replay

Timers have a serial number and the generation of their replay. Both only tell timers apart: a
replay in which all of them are further on does the same at the same time, and stays ahead as far as
it was (`Performance.advance_ahead`).
-/

namespace BlockPuzzle

/-- A timer that was made later. -/
def Timer.ahead (timer : Timer) (lead : Lead) : Timer :=
  { timer with
    serial := timer.serial + lead.serials
    generation := timer.generation + lead.generations }

/-- A replay that has made more timers and is of a later generation. -/
def Replay.ahead (replay : Replay) (lead : Lead) : Replay :=
  { replay with
    queue := replay.queue.map fun timer => timer.ahead lead
    generation := replay.generation + lead.generations
    nextSerial := replay.nextSerial + lead.serials }

/-! ## Timers -/

/-- Timers keep their order when both were made later. -/
lemma Timer.before_ahead (a b : Timer) (lead : Lead) :
    (a.ahead lead).before (b.ahead lead) = a.before b := by
  have serial : decide (a.serial + lead.serials < b.serial + lead.serials) =
      decide (a.serial < b.serial) := decide_eq_decide.2 Nat.add_lt_add_iff_right
  exact congrArg (fun later => a.deadline < b.deadline || (a.deadline == b.deadline && later)) serial

/-- Timers keep their order. -/
lemma enqueue_ahead (timer : Timer) (queue : List Timer) (lead : Lead) :
    enqueue (timer.ahead lead) (queue.map fun timer => timer.ahead lead) =
      (enqueue timer queue).map fun timer => timer.ahead lead := by
  induction queue with
  | nil => rfl
  | cons first others ih =>
    simp only [List.map_cons, enqueue, Timer.before_ahead]
    cases timer.before first with
    | true => rfl
    | false => exact congrArg (first.ahead lead :: ·) ih

/-- A replay that is ahead makes timers that are ahead. -/
lemma Replay.schedule_ahead (replay : Replay) (lead : Lead) (deadline : Millis) (task : Task) :
    (replay.ahead lead).schedule deadline task = (replay.schedule deadline task).ahead lead := by
  have queue :=
    enqueue_ahead ⟨deadline, replay.nextSerial, replay.generation, task⟩ replay.queue lead
  have serial := Nat.add_right_comm replay.nextSerial lead.serials 1
  simp only [schedule, ahead, Timer.ahead] at queue serial ⊢
  rw [queue, serial]

namespace Performance

/-- A replay at work that is ahead of another one with all that it counts. -/
def ahead (p : Performance) (lead : Lead) : Performance :=
  { p with replay := p.replay.ahead lead, attempt := p.attempt.ahead lead }

variable (p : Performance) (lead : Lead)

/-! ## Tasks -/

/-- A task is scheduled by a replay that is ahead just as it would be. -/
lemma schedule_ahead (deadline : Millis) (task : Task) :
    (p.ahead lead).schedule deadline task = (p.schedule deadline task).ahead lead := by
  have scheduled := p.replay.schedule_ahead lead deadline task
  simp only [schedule, ahead, scheduled]

/-- So is what follows the last entry. -/
lemma scheduleTail_ahead (deadline : Millis) :
    (p.ahead lead).scheduleTail deadline = (p.scheduleTail deadline).ahead lead := by
  have same : (p.ahead lead).attempt.verdict = p.attempt.verdict := rfl
  simp only [scheduleTail, same]
  by_cases success : p.attempt.verdict = .success
  · rw [if_pos success, if_pos success]
    exact p.schedule_ahead lead _ _
  · rw [if_neg success, if_neg success]
    exact p.schedule_ahead lead _ _

/-- An entry is presented just as it would be. -/
lemma present_ahead (entry : Entry) :
    (p.ahead lead).present entry = (p.present entry).ahead lead := by
  have seen := p.attempt.marks.seen_ahead lead .animate entry.block
  have mark := p.attempt.marks.mark_ahead lead .animate entry.block
  have marks : (p.ahead lead).attempt.marks = p.attempt.marks.ahead lead := rfl
  have dedupe : (p.ahead lead).replay.dedupe = p.replay.dedupe := rfl
  simp only [present, marks, seen, mark, dedupe]
  cases p.attempt.marks.seen .animate entry.block && p.replay.dedupe with
  | true => rfl
  | false => rfl

/-- So is a step. -/
lemma step_ahead (deadline : Millis) :
    (p.ahead lead).step deadline = (p.step deadline).ahead lead := by
  cases first : p.attempt.journal.pop? with
  | none =>
    rw [step_of_none first, step_of_none (p := p.ahead lead) first]
    exact p.scheduleTail_ahead lead deadline
  | some taken =>
    obtain ⟨entry, journal⟩ := taken
    have present := (p.take journal).present_ahead lead entry
    have take : (p.ahead lead).take journal = (p.take journal).ahead lead := rfl
    rw [step_of_some first, step_of_some (p := p.ahead lead) first, take, present]
    cases journal.isEmpty with
    | true => exact scheduleTail_ahead _ lead deadline
    | false => exact schedule_ahead _ lead _ .step

/-- So is a picture of the victory. -/
lemma celebrate_ahead (deadline : Millis) (index : Nat) :
    (p.ahead lead).celebrate deadline index = (p.celebrate deadline index).ahead lead := by
  simp only [celebrate]
  by_cases more : index + 1 < victoryPictures
  · rw [if_pos more, if_pos more]
    exact schedule_ahead (p.deliver _) lead _ _
  · rw [if_neg more, if_neg more]
    rfl

/-- A timer does the same, however far ahead its replay is. -/
lemma fire_ahead (timer : Timer) :
    (p.ahead lead).fire (timer.ahead lead) = (p.fire timer).ahead lead := by
  have task : (timer.ahead lead).task = timer.task := rfl
  rw [fire_eq, fire_eq, task]
  cases timer.task with
  | step => exact p.atWork.step_ahead lead timer.deadline
  | victory index => exact p.atWork.celebrate_ahead lead timer.deadline index
  | complete => rfl

/-! ## Advances -/

/-- As many timers fire, and the lead remains. -/
lemma fireDue_ahead (now : Millis) (fired : Nat) :
    fireDue now fired (p.ahead lead) =
      ((fireDue now fired p).1, (fireDue now fired p).2.ahead lead) := by
  fun_induction fireDue now fired p with
  | case1 fired p empty => exact fireDue_of_nil (p := p.ahead lead) (congrArg (List.map _) empty) ..
  | case2 fired p timer others queue due current ih =>
    rw [fireDue_of_cons (p := p.ahead lead) (congrArg (List.map _) queue), ← ih, ← fire_ahead]
    exact (if_pos due).trans (if_pos (congrArg (· + lead.generations) current))
  | case3 fired p timer others queue due stale ih =>
    rw [fireDue_of_cons (p := p.ahead lead) (congrArg (List.map _) queue), ← ih]
    exact (if_pos due).trans (if_neg fun e => stale (Nat.add_right_cancel e))
  | case4 fired p timer others queue early =>
    rw [fireDue_of_cons (p := p.ahead lead) (congrArg (List.map _) queue)]
    exact if_neg early

/-- The lead remains when a replay settles. -/
lemma settle_ahead : (p.ahead lead).settle = p.settle.ahead lead := by
  have stage : (p.ahead lead).replay.stage = p.replay.stage := rfl
  simp only [settle, stage]
  by_cases animating : p.replay.stage = .animating
  · rw [if_pos animating, if_pos animating]
    rfl
  · rw [if_neg animating, if_neg animating]

/-- An advance fires as many timers, delivers the same events and leaves the same replay, but for
the counts that it was ahead with. -/
theorem advance_ahead (now : Millis) :
    (p.ahead lead).advance now = ((p.advance now).1, (p.advance now).2.ahead lead) := by
  simp only [advance, fireDue_ahead, settle_ahead]

end Performance

end BlockPuzzle
