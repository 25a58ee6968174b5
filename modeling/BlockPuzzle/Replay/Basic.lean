import BlockPuzzle.Attempt.Basic
import BlockPuzzle.Replay.Event
import BlockPuzzle.Settings

/-!
# Replays

A replay turns the journal of a settled attempt into timed events. Its work waits in a queue of timers,
ordered by deadline and then by serial number. A timer that fires takes one entry from the journal,
draws one picture of the victory, or announces the end, and schedules what comes next. Timers carry the
generation of the replay that made them; `Replay.cancel` begins a new one.

Every timer that fires or is dropped lowers `Performance.work`, so `Performance.advance` ends.
-/

namespace BlockPuzzle

/-- What a timer does when it fires. -/
inductive Task where
  | step
  | victory (index : Nat)
  | complete
  deriving DecidableEq

/-- A task with the instant it is due at. -/
structure Timer where
  deadline : Millis
  serial : Nat
  generation : Nat
  task : Task
  deriving DecidableEq

/-- Where a replay stands. -/
inductive Stage where
  | idle
  | scheduled
  | animating
  | waiting
  | drained
  deriving DecidableEq

namespace Stage

/-- The name of a stage. -/
def name : Stage → String
  | idle => "idle"
  | scheduled => "scheduled"
  | animating => "animating"
  | waiting => "waiting"
  | drained => "drained"

/-- The name of a stage with a capital letter. -/
def title : Stage → String
  | idle => "Idle"
  | scheduled => "Scheduled"
  | animating => "Animating"
  | waiting => "Waiting"
  | drained => "Drained"

end Stage

/-- Why a replay does not start. -/
inductive StartError where
  | notIdle (stage : Stage)
  | unsettled
  deriving DecidableEq

/-- The words for a replay that does not start. -/
def StartError.message : StartError → String
  | notIdle stage => "replay cannot start from state " ++ stage.title
  | unsettled => "run has no result yet"

/-- Number of pictures of a victory. -/
def victoryPictures : Nat := 3

/-- Whether one timer is due before another one. -/
def Timer.before (a b : Timer) : Bool :=
  a.deadline < b.deadline || (a.deadline == b.deadline && a.serial < b.serial)

/-- Puts a timer into a queue, behind those that are due before it. -/
def enqueue (timer : Timer) : List Timer → List Timer
  | [] => [timer]
  | first :: others =>
    if timer.before first then timer :: first :: others else first :: enqueue timer others

/-- The state of a replay: its timers, first one first, and its counters. -/
structure Replay where
  queue : List Timer
  generation : Nat
  nextSerial : Nat
  stage : Stage
  cadence : Option Cadence
  dedupe : Bool
  taken : Nat
  animated : Nat
  skipped : Nat
  deriving DecidableEq

namespace Replay

/-- A replay that has nothing to do. With `dedupe`, a block is drawn only once. -/
def idle (dedupe : Bool) : Replay :=
  ⟨[], 0, 0, .idle, none, dedupe, 0, 0, 0⟩

/-- Puts a task into the queue. -/
def schedule (replay : Replay) (deadline : Millis) (task : Task) : Replay :=
  { replay with
    queue := enqueue ⟨deadline, replay.nextSerial, replay.generation, task⟩ replay.queue
    nextSerial := replay.nextSerial + 1 }

/-- Starts the replay of an attempt; the first entry is due one step after `now`. -/
def start (replay : Replay) (attempt : Attempt) (cadence : Cadence) (now : Millis) :
    Except StartError Replay :=
  if replay.stage ≠ .idle then .error (.notIdle replay.stage)
  else if attempt.verdict = .unset then .error .unsettled
  else
    let replay := { replay with cadence := some cadence, taken := 0, animated := 0, skipped := 0 }
    .ok { replay.schedule (now.after cadence.step) .step with stage := .scheduled }

/-- Drops all timers and begins a new generation. -/
def cancel (replay : Replay) : Replay :=
  { replay with
    queue := []
    generation := replay.generation + 1
    cadence := none
    stage := .idle }

/-- Number of timers. -/
def pending (replay : Replay) : Nat :=
  replay.queue.length

/-- The instant at which the first timer is due. -/
def nextDeadline? (replay : Replay) : Option Millis :=
  replay.queue.head?.map Timer.deadline

/-- The delays in force; there are none without a start. -/
def delays (replay : Replay) : Cadence :=
  replay.cadence.getD ⟨0, 0⟩

end Replay

/-- A replay at work on an attempt, with the events it has delivered, newest first. -/
structure Performance where
  replay : Replay
  attempt : Attempt
  delivered : List Event

namespace Performance

/-- Puts a task into the queue of the replay. -/
def schedule (p : Performance) (deadline : Millis) (task : Task) : Performance :=
  { p with replay := p.replay.schedule deadline task }

/-- Delivers an event. -/
def deliver (p : Performance) (event : Event) : Performance :=
  { p with delivered := event :: p.delivered }

/-- Schedules what follows the last entry: the victory, or at once the end. -/
def scheduleTail (p : Performance) (deadline : Millis) : Performance :=
  let delays := p.replay.delays
  if p.attempt.verdict = .success then p.schedule (deadline.after delays.victory) (.victory 0)
  else p.schedule (deadline.after delays.step) .complete

/-- Announces the end. -/
def complete (p : Performance) : Performance :=
  deliver { p with replay := { p.replay with stage := .drained } } (.done p.attempt.verdict)

/-- The picture for an action. -/
def picture : Action → Picture
  | .bump .. => .crash
  | _ => .step

/-- Shows an entry: the agent is moved as the entry says and drawn. -/
def animate (p : Performance) (entry : Entry) : Performance :=
  let pose := entry.action.apply p.attempt.display
  let p := { p with attempt := { p.attempt with display := pose } }
  (p.deliver (.highlight entry.block)).deliver (.render pose (picture entry.action))

/-- Marks the block of an entry and shows the entry, unless its block was shown before and blocks are
shown only once. -/
def present (p : Performance) (entry : Entry) : Performance :=
  let seen := p.attempt.marks.seen .animate entry.block
  let marks := p.attempt.marks.mark .animate entry.block
  let p := { p with attempt := { p.attempt with marks } }
  if seen && p.replay.dedupe then
    { p with replay := { p.replay with skipped := p.replay.skipped + 1 } }
  else
    let p := p.animate entry
    { p with replay := { p.replay with animated := p.replay.animated + 1 } }

/-- Takes one entry from the journal, and schedules the next one or the tail. -/
def step (p : Performance) (deadline : Millis) : Performance :=
  match p.attempt.journal.pop? with
  | none => p.scheduleTail deadline
  | some (entry, journal) =>
    let p := { p with
      attempt := { p.attempt with journal }
      replay := { p.replay with taken := p.replay.taken + 1 } }
    let p := p.present entry
    if p.attempt.journal.isEmpty then p.scheduleTail deadline
    else p.schedule (deadline.after p.replay.delays.step) .step

/-- Draws one picture of the victory, and schedules the next one or announces the end. -/
def celebrate (p : Performance) (deadline : Millis) (index : Nat) : Performance :=
  let p := p.deliver (.render p.attempt.display (.victory index))
  if index + 1 < victoryPictures then
    p.schedule (deadline.after p.replay.delays.victory) (.victory (index + 1))
  else p.complete

/-- Fires a timer that has been taken from the queue. -/
def fire (p : Performance) (timer : Timer) : Performance :=
  let p := { p with replay := { p.replay with stage := .animating } }
  match timer.task with
  | .step => p.step timer.deadline
  | .victory index => p.celebrate timer.deadline index
  | .complete => p.complete

/-! ## The work that is left -/

/-- More than the work of the timers that a task can lead to without taking an entry. -/
def taskWork : Task → Nat
  | .step => 4
  | .victory index => max 1 (3 - index)
  | .complete => 1

/-- The work of all timers. -/
def queueWork : List Timer → Nat
  | [] => 0
  | timer :: queue => taskWork timer.task + queueWork queue

/-- The work that is left: the timers and the entries. -/
def work (p : Performance) : Nat :=
  queueWork p.replay.queue + p.attempt.journal.size

/-- A new timer adds its own work, wherever it is put into the queue. -/
theorem queueWork_enqueue (timer : Timer) (queue : List Timer) :
    queueWork (enqueue timer queue) = taskWork timer.task + queueWork queue := by
  induction queue with
  | nil => simp [enqueue, queueWork]
  | cons first others ih =>
    unfold enqueue
    split
    · simp [queueWork]
    · simp only [queueWork, ih]
      omega

/-- Setting a timer adds the work of its task. -/
theorem work_schedule (p : Performance) (deadline : Millis) (task : Task) :
    (p.schedule deadline task).work = taskWork task + p.work := by
  simp only [schedule, work, Replay.schedule, queueWork_enqueue]
  omega

/-- What is still to come behind the last entry counts for three at most. -/
theorem work_scheduleTail_le (p : Performance) (deadline : Millis) :
    (p.scheduleTail deadline).work ≤ 3 + p.work := by
  unfold scheduleTail
  simp only
  split <;> simp only [work_schedule, taskWork] <;> omega

/-- Completing leaves the timers and the entries as they are. -/
theorem work_complete (p : Performance) : p.complete.work = p.work := rfl

/-- Showing an entry leaves the timers and the other entries as they are. -/
theorem work_present (p : Performance) (entry : Entry) : (p.present entry).work = p.work := by
  unfold present
  simp only
  split <;> rfl

/-- A step takes out an entry or sets the timers of the end, which is less work than the step. -/
theorem work_step_lt (p : Performance) (deadline : Millis) :
    (p.step deadline).work < taskWork .step + p.work := by
  unfold step
  split
  · next h =>
    have := p.work_scheduleTail_le deadline
    simp only [taskWork]
    omega
  · next entry journal h =>
    have hsize := Journal.size_of_pop? h
    have hwork : ∀ q : Performance, q.work = (q.present entry).work := fun q =>
      (work_present q entry).symm
    simp only
    split
    · refine Nat.lt_of_le_of_lt (work_scheduleTail_le _ deadline) ?_
      rw [← hwork]
      simp only [work, taskWork]
      omega
    · rw [work_schedule, ← hwork]
      simp only [work, taskWork]
      omega

/-- A picture of victory leaves fewer pictures. -/
theorem work_celebrate_lt (p : Performance) (deadline : Millis) (index : Nat) :
    (p.celebrate deadline index).work < taskWork (.victory index) + p.work := by
  unfold celebrate
  by_cases h : index + 1 < victoryPictures
  · simp only [if_pos h, work_schedule]
    simp only [victoryPictures] at h
    simp only [taskWork, work, deliver]
    omega
  · simp only [if_neg h, work_complete]
    simp only [taskWork, work, deliver]
    omega

/-- Whatever a timer does, it is less work afterwards than with the timer. -/
theorem work_fire_lt (p : Performance) (timer : Timer) :
    (p.fire timer).work < taskWork timer.task + p.work := by
  unfold fire
  simp only
  split
  · next h => rw [h]; exact work_step_lt _ _
  · next h => rw [h]; exact work_celebrate_lt _ _ _
  · next h => rw [h, work_complete]; simp only [taskWork, work]; omega

/-- Takes the first timer from the queue. -/
def dequeue (p : Performance) (others : List Timer) : Performance :=
  { p with replay := { p.replay with queue := others } }

/-- The first timer holds its part of the work. -/
theorem work_dequeue {p : Performance} {timer : Timer} {others : List Timer}
    (h : p.replay.queue = timer :: others) :
    p.work = taskWork timer.task + (p.dequeue others).work := by
  simp only [work, dequeue, h, queueWork]
  omega

/-- Every task is some work. -/
theorem taskWork_pos (task : Task) : 0 < taskWork task := by
  cases task <;> simp only [taskWork] <;> omega

/-! ## Advancing -/

/-- Fires the timers that are due, first one first, and counts them on from `fired`. Timers of an
earlier generation are dropped. -/
def fireDue (now : Millis) (fired : Nat) (p : Performance) : Nat × Performance :=
  match _h : p.replay.queue with
  | [] => (fired, p)
  | timer :: others =>
    if timer.deadline ≤ now then
      if timer.generation = p.replay.generation then
        fireDue now (fired + 1) ((p.dequeue others).fire timer)
      else fireDue now fired (p.dequeue others)
    else (fired, p)
termination_by p.work
decreasing_by
  · rw [work_dequeue _h]; exact work_fire_lt _ timer
  · have := taskWork_pos timer.task; rw [work_dequeue _h]; omega

/-- Between two advances a replay that is at work waits. -/
def settle (p : Performance) : Performance :=
  if p.replay.stage = .animating then { p with replay := { p.replay with stage := .waiting } } else p

/-- Fires all timers that are due at `now` and counts them. -/
def advance (now : Millis) (p : Performance) : Nat × Performance :=
  let (fired, p) := fireDue now 0 p
  (fired, p.settle)

/-- Settling changes only the stage. -/
theorem work_settle (p : Performance) : p.settle.work = p.work := by
  unfold settle
  split <;> rfl

/-- Firing all timers that are due does not add to the work. -/
theorem work_fireDue_le (now : Millis) (fired : Nat) (p : Performance) :
    (fireDue now fired p).2.work ≤ p.work := by
  fun_induction fireDue now fired p with
  | case1 => exact Nat.le_refl _
  | case2 fired p timer others h _ _ ih =>
    have := work_fire_lt (p.dequeue others) timer
    rw [work_dequeue h]
    omega
  | case3 fired p timer others h _ _ ih =>
    rw [work_dequeue h]
    omega
  | case4 => exact Nat.le_refl _

/-- Nor does advancing. -/
theorem work_advance_le (now : Millis) (p : Performance) : (p.advance now).2.work ≤ p.work := by
  simp only [advance, work_settle]
  exact work_fireDue_le now 0 p

/-- Advancing to the first deadline fires a timer, so it leaves less work. -/
theorem work_advance_lt {now deadline : Millis} {p : Performance}
    (h : p.replay.nextDeadline? = some deadline) (hdue : deadline ≤ now) :
    (p.advance now).2.work < p.work := by
  simp only [advance, work_settle]
  match hqueue : p.replay.queue with
  | [] => simp [Replay.nextDeadline?, hqueue] at h
  | timer :: others =>
    simp only [Replay.nextDeadline?, hqueue, List.head?_cons, Option.map_some, Option.some.injEq] at h
    subst h
    rw [work_dequeue hqueue, fireDue.eq_def]
    split
    · next hnil => simp [hqueue] at hnil
    · next t os hcons =>
      obtain ⟨rfl, rfl⟩ : timer = t ∧ others = os := by simpa [hqueue] using hcons
      rw [if_pos hdue]
      split
      · have := work_fireDue_le now (0 + 1) ((p.dequeue others).fire timer)
        have := work_fire_lt (p.dequeue others) timer
        omega
      · have := work_fireDue_le now 0 (p.dequeue others)
        have := taskWork_pos timer.task
        omega

end Performance

end BlockPuzzle
