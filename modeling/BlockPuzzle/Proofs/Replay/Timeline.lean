import BlockPuzzle.Proofs.Replay.Steady

/-!
# Timelines

`Performance.timeline` says what the replay of an attempt delivers and when: each entry one step
after the one before it, then the pictures of the victory or at once the end. Times are sums of
delays, cut off at the last instant.

`Performance.Plays` relates a replay at work to the beats that are left of its timeline. Firing the
timers that are due plays the beats that are due (`Plays.fireDue`), so after any advances, in any
order, what has been delivered are the beats up to the latest of them (`Plays.advances`). The
headline `Replay.start_delivers_timeline` says this of a replay from its start on.
-/

namespace BlockPuzzle

/-! ## Beats -/

/-- A moment of a replay with the events that are delivered at it. -/
structure Beat where
  time : Nat
  events : List Event
  deriving DecidableEq

/-- A time, or the last instant if that comes first. -/
def clip (time : Nat) : Nat :=
  min time Millis.last.toNat

/-- A delay behind a time that has been cut off is cut off at the same instant. -/
lemma clip_add (time delay : Nat) : clip (clip time + delay) = clip (time + delay) := by
  unfold clip
  omega

/-- The last instant does not turn times around. -/
lemma clip_le_clip {a b : Nat} (le : a ≤ b) : clip a ≤ clip b := by
  unfold clip
  omega

/-- A deadline after a delay. -/
lemma toNat_after_clip {deadline : Millis} {time : Nat} (due : deadline.toNat = clip time)
    (delay : Millis) : (deadline.after delay).toNat = clip (time + delay.toNat) := by
  rw [Millis.toNat_after, due, ← clip_add]
  rfl

/-- Lists of events, one step after the other. -/
def stepBeats (step start : Nat) (moments : List (List Event)) : List Beat :=
  moments.mapIdx fun i events => ⟨clip (start + (i + 1) * step), events⟩

/-- The first moment is due a step later, the others behind it. -/
lemma stepBeats_cons (step start : Nat) (events : List Event) (moments : List (List Event)) :
    stepBeats step start (events :: moments) =
      ⟨clip (start + step), events⟩ :: stepBeats step (start + step) moments := by
  unfold stepBeats
  rw [List.mapIdx_cons, Nat.zero_add, Nat.one_mul]
  congr 2
  funext i events
  rw [show start + (i + 1 + 1) * step = start + step + (i + 1) * step from by
    rw [Nat.succ_mul (i + 1)]
    omega]

namespace Performance

/-! ## The timeline of a replay -/

/-- What becomes of the entries of a journal, in order: one that is shown, or `none` for one that is
passed over because its block is marked, before the replay or by an earlier entry. -/
def presented (dedupe : Bool) (marked : List BlockId) : List Entry → List (Option Entry)
  | [] => []
  | entry :: entries =>
    (if marked.contains entry.block && dedupe then none else some entry) ::
      presented dedupe (marked.insert entry.block) entries

/-- The picture of an agent that has bumped into something is a crash, that of any other a step. -/
def framed (action : Action) : Picture :=
  match action with
  | .bump .. => .crash
  | .move .. | .rotateLeft .. | .rotateRight .. | .sense .. | .finish .. => .step

/-- What is delivered for each of these entries, from a pose on. -/
def moments (pose : Pose) : List (Option Entry) → List (List Event)
  | [] => []
  | none :: shown => [] :: moments pose shown
  | some entry :: shown =>
    [.highlight entry.block, .render (entry.action.apply pose) (framed entry.action)] ::
      moments (entry.action.apply pose) shown

/-- The pose that is shown when they all have been. -/
def lastPose (pose : Pose) : List (Option Entry) → Pose
  | [] => pose
  | none :: shown => lastPose pose shown
  | some entry :: shown => lastPose (entry.action.apply pose) shown

/-- Something becomes of each entry. -/
lemma length_presented (dedupe : Bool) (marked : List BlockId) (entries : List Entry) :
    (presented dedupe marked entries).length = entries.length := by
  induction entries generalizing marked with
  | nil => rfl
  | cons entry entries ih => simp [presented, ih]

/-- Each entry has a moment, shown or not. -/
lemma length_moments (pose : Pose) (shown : List (Option Entry)) :
    (moments pose shown).length = shown.length := by
  induction shown generalizing pose with
  | nil => rfl
  | cons entry shown ih =>
    cases entry with
    | none => simp [moments, ih]
    | some entry => simp [moments, ih]

/-- What follows the last entry. -/
def finale (cadence : Cadence) (verdict : Verdict) (pose : Pose) (time : Nat) : List Beat :=
  if verdict = .success then
    [⟨clip (time + cadence.victory.toNat), [.render pose (.victory 0)]⟩,
      ⟨clip (time + 2 * cadence.victory.toNat), [.render pose (.victory 1)]⟩,
      ⟨clip (time + 3 * cadence.victory.toNat), [.render pose (.victory 2), .done verdict]⟩]
  else [⟨clip (time + cadence.step.toNat), [.done verdict]⟩]

/-- All beats of a replay. Without entries there is one step without events. -/
def timeline (dedupe : Bool) (cadence : Cadence) (start : Millis) (attempt : Attempt) : List Beat :=
  let shown := presented dedupe attempt.marks.animated attempt.journal.toList
  let steps := if shown.isEmpty then [[]] else moments attempt.display shown
  stepBeats cadence.step.toNat start.toNat steps ++
    finale cadence attempt.verdict (lastPose attempt.display shown)
      (start.toNat + steps.length * cadence.step.toNat)

/-! ## Playing beats -/

/-- A replay at work delivers beats, timer by timer, and then has come to its end. -/
inductive Plays : Performance → List Beat → Performance → Prop where
  | drained {p} :
    p.replay.queue = [] →
    p.replay.stage = .drained →
    Plays p [] p
  | beat {p q timer events beats} :
    p.replay.queue = [timer] →
    timer.generation = p.replay.generation →
    p.replay.stage ≠ .drained →
    ((p.dequeue []).fire timer).delivered = events.reverse ++ p.delivered →
    Plays ((p.dequeue []).fire timer) beats q →
    Plays p (⟨timer.deadline.toNat, events⟩ :: beats) q

/-- Whether a beat is due at an instant. -/
def due (now : Millis) (beat : Beat) : Bool :=
  beat.time ≤ now.toNat

variable {p q : Performance} {beats : List Beat}

/-- One firing of a single timer of the present generation, if it is due. -/
lemma fireDue_single {timer : Timer} (single : p.replay.queue = [timer])
    (current : timer.generation = p.replay.generation) (now : Millis) (fired : Nat) :
    fireDue now fired p =
      if timer.deadline ≤ now then fireDue now (fired + 1) ((p.dequeue []).fire timer)
      else (fired, p) := by
  rw [fireDue_of_cons single, if_pos current]

/-- Firing the timers that are due plays the beats that are due. -/
lemma Plays.fireDue (plays : Plays p beats q) (now : Millis) (fired : Nat) :
    (fireDue now fired p).2.delivered =
        ((beats.takeWhile (due now)).flatMap Beat.events).reverse ++ p.delivered ∧
      Plays (Performance.fireDue now fired p).2 (beats.dropWhile (due now)) q := by
  induction plays generalizing fired with
  | @drained p empty stage =>
    rw [fireDue_of_nil empty]
    exact ⟨rfl, .drained empty stage⟩
  | @beat p q timer events beats single current stage delivered rest ih =>
    rw [fireDue_single single current]
    by_cases ripe : timer.deadline ≤ now
    · have ripe' : due now ⟨timer.deadline.toNat, events⟩ = true :=
        decide_eq_true (UInt64.le_iff_toNat_le.1 ripe)
      obtain ⟨delivered', plays⟩ := ih (fired + 1)
      rw [if_pos ripe, List.takeWhile_cons_of_pos ripe', List.dropWhile_cons_of_pos ripe']
      refine ⟨?_, plays⟩
      rw [delivered', delivered, List.flatMap_cons, List.reverse_append, List.append_assoc]
    · have unripe : ¬ due now ⟨timer.deadline.toNat, events⟩ = true := fun e =>
        ripe (UInt64.le_iff_toNat_le.2 (of_decide_eq_true e))
      rw [if_neg ripe, List.takeWhile_cons_of_neg unripe, List.dropWhile_cons_of_neg unripe]
      exact ⟨rfl, .beat single current stage delivered rest⟩

/-- A timer that fires does not ask whether the replay was waiting. -/
lemma settle_fire (p : Performance) (timer : Timer) :
    (p.settle.dequeue []).fire timer = (p.dequeue []).fire timer := by
  unfold settle
  by_cases animating : p.replay.stage = .animating
  · rw [if_pos animating]
    rfl
  · rw [if_neg animating]

/-- A replay that waits plays what it would play at work. -/
lemma Plays.settle (plays : Plays p beats q) : Plays p.settle beats q := by
  by_cases animating : p.replay.stage = .animating
  · cases plays with
    | drained _ stage => cases animating.symm.trans stage
    | beat single current stage delivered rest =>
      rw [← settle_fire] at delivered rest
      unfold Performance.settle at *
      rw [if_pos animating] at *
      exact .beat single current (by simp) delivered rest
  · unfold Performance.settle
    rwa [if_neg animating]

/-! ## Advances -/

/-- An advance plays the beats that are due. -/
lemma Plays.advance_due (plays : Plays p beats q) (now : Millis) :
    (p.advance now).2.delivered =
        ((beats.takeWhile (due now)).flatMap Beat.events).reverse ++ p.delivered ∧
      Plays (p.advance now).2 (beats.dropWhile (due now)) q := by
  obtain ⟨delivered, rest⟩ := plays.fireDue now 0
  have settled : (p.advance now).2.delivered = (Performance.fireDue now 0 p).2.delivered := by
    simp only [Performance.advance, Performance.settle]
    split <;> rfl
  exact ⟨settled.trans delivered, rest.settle⟩

/-- Beats that come one after the other. -/
def InTime (beats : List Beat) : Prop :=
  beats.Pairwise fun a b => a.time ≤ b.time

/-- The beats that are due come before all others. -/
lemma InTime.takeWhile_due (inTime : InTime beats) (now : Millis) :
    beats.takeWhile (due now) = beats.filter (due now) ∧
      beats.dropWhile (due now) = beats.filter fun beat => !due now beat := by
  induction beats with
  | nil => exact ⟨rfl, rfl⟩
  | cons beat beats ih =>
    obtain ⟨first, inTime⟩ := List.pairwise_cons.1 inTime
    by_cases ripe : due now beat = true
    · obtain ⟨taken, dropped⟩ := ih inTime
      simp [ripe, taken, dropped]
    · -- the first beat that is not due keeps all later ones from being due
      have later : ∀ b ∈ beats, due now b = false := by
        intro b mem
        simp only [due, decide_eq_true_eq] at ripe
        have := first b mem
        exact decide_eq_false (by omega)
      have none := List.filter_eq_nil_iff.2 fun b mem => ne_true_of_eq_false (later b mem)
      have all := List.filter_eq_self.2 fun b mem =>
        show (!due now b) = true by rw [later b mem]; rfl
      simp [ripe, none, all]

/-- Beats that are due now or later are those that are due now and then those that are due later. -/
lemma InTime.filter_due_or (inTime : InTime beats) (now : Millis) (nows : List Millis) :
    beats.filter (fun beat => (now :: nows).any (due · beat)) =
      beats.filter (due now) ++
        (beats.filter fun beat => !due now beat).filter fun beat => nows.any (due · beat) := by
  obtain ⟨taken, dropped⟩ := inTime.takeWhile_due now
  have parts : beats.filter (due now) ++ beats.filter (fun beat => !due now beat) = beats := by
    rw [← taken, ← dropped, List.takeWhile_append_dropWhile]
  calc
    _ = (beats.filter (due now) ++ beats.filter fun beat => !due now beat).filter
        fun beat => (now :: nows).any (due · beat) := by rw [parts]
    _ = _ := by
      rw [List.filter_append, List.filter_filter, List.filter_filter, List.filter_filter]
      congr 1
      · refine List.filter_congr fun beat _ => ?_
        rw [List.any_cons]
        cases due now beat <;> simp
      · refine List.filter_congr fun beat _ => ?_
        rw [List.any_cons]
        cases due now beat <;> simp

/-- Advances to some instants, one after the other. -/
def advances (nows : List Millis) (p : Performance) : Performance :=
  nows.foldl (fun p now => (p.advance now).2) p

/-- After any advances, in any order, the beats that were due at one of them have been played. -/
theorem Plays.advances (plays : Plays p beats q) (inTime : InTime beats) (nows : List Millis) :
    (p.advances nows).delivered =
        ((beats.filter fun beat => nows.any (due · beat)).flatMap Beat.events).reverse ++
          p.delivered ∧
      Plays (p.advances nows) (beats.filter fun beat => !nows.any (due · beat)) q := by
  induction nows generalizing p beats with
  | nil =>
    have all := List.filter_eq_self.2 fun (beat : Beat) (_ : beat ∈ beats) => Bool.not_false
    exact ⟨by simp [advances], all.symm ▸ plays⟩
  | cons now nows ih =>
    obtain ⟨delivered, rest⟩ := plays.advance_due now
    obtain ⟨taken, dropped⟩ := inTime.takeWhile_due now
    rw [taken] at delivered
    rw [dropped] at rest
    obtain ⟨delivered', rest'⟩ := ih rest (inTime.filter _)
    constructor
    · rw [inTime.filter_due_or, List.flatMap_append, List.reverse_append, List.append_assoc,
        ← delivered]
      exact delivered'
    · rw [List.filter_filter] at rest'
      have same : (beats.filter fun beat => !(now :: nows).any (due · beat)) =
          beats.filter fun beat => (!nows.any (due · beat)) && !due now beat := by
        refine List.filter_congr fun beat _ => ?_
        rw [List.any_cons, Bool.not_or, Bool.and_comm]
      rw [same]
      exact rest'

/-! ## Playing a timeline -/

/-- A replay with a single timer, which has been scheduled for it. -/
structure Poised (p : Performance) (cadence : Cadence) (timer : Timer) : Prop where
  queue : p.replay.queue = [timer]
  current : timer.generation = p.replay.generation
  stage : p.replay.stage ≠ .drained
  delays : p.replay.delays = cadence

variable {cadence : Cadence} {timer : Timer}

/-- A timer fires in a replay that has no others. -/
structure Firing (p : Performance) (cadence : Cadence) : Prop where
  queue : p.replay.queue = []
  stage : p.replay.stage = .animating
  delays : p.replay.delays = cadence

/-- A timer fires once it has been taken from the queue. -/
lemma Poised.firing (poised : Poised p cadence timer) : Firing (p.dequeue []).atWork cadence :=
  ⟨rfl, rfl, poised.delays⟩

/-- What a timer schedules is the single timer there is. -/
lemma Firing.schedule (firing : Firing p cadence) (deadline : Millis) (task : Task) :
    Poised (p.schedule deadline task) cadence
      ⟨deadline, p.replay.nextSerial, p.replay.generation, task⟩ where
  queue := by simp only [Performance.schedule, Replay.schedule, firing.queue, enqueue]
  current := rfl
  stage := by
    change p.replay.stage ≠ .drained
    rw [firing.stage]
    decide
  delays := firing.delays

/-- A timer at work is a beat, and what it leads to follows. -/
lemma Poised.plays {events : List Event} (poised : Poised p cadence timer)
    (delivered : ((p.dequeue []).fire timer).delivered = events.reverse ++ p.delivered)
    (rest : Plays ((p.dequeue []).fire timer) beats q) :
    Plays p (⟨timer.deadline.toNat, events⟩ :: beats) q :=
  .beat poised.queue poised.current poised.stage delivered rest

/-- The end is announced and nothing follows. -/
lemma plays_complete (poised : Poised p cadence timer) (task : timer.task = .complete) :
    ∃ q, Plays p [⟨timer.deadline.toNat, [.done p.attempt.verdict]⟩] q ∧
      q.attempt.display = p.attempt.display := by
  have fired : (p.dequeue []).fire timer = (p.dequeue []).atWork.complete := by rw [fire_eq, task]
  refine ⟨_, poised.plays ?_ (.drained ?_ ?_), ?_⟩
  · rw [fired]
    rfl
  · rw [fired]
    rfl
  · rw [fired]
    rfl
  · rw [fired]
    rfl

/-- The last picture of the victory comes with the end. -/
lemma plays_last_victory (poised : Poised p cadence timer) (task : timer.task = .victory 2) :
    ∃ q, Plays p [⟨timer.deadline.toNat,
        [.render p.attempt.display (.victory 2), .done p.attempt.verdict]⟩] q ∧
      q.attempt.display = p.attempt.display := by
  have fired : (p.dequeue []).fire timer =
      ((p.dequeue []).atWork.deliver (.render p.attempt.display (.victory 2))).complete := by
    rw [fire_eq, task]
    rfl
  refine ⟨_, poised.plays ?_ (.drained ?_ ?_), ?_⟩
  · rw [fired]
    rfl
  · rw [fired]
    rfl
  · rw [fired]
    rfl
  · rw [fired]
    rfl

/-- A picture of the victory that is not the last one is followed by the next one. -/
lemma plays_victory {index : Nat} (poised : Poised p cadence timer)
    (task : timer.task = .victory index) (more : index + 1 < victoryPictures)
    (next : ∀ {p' timer'}, Poised p' cadence timer' → timer'.task = .victory (index + 1) →
      timer'.deadline = timer.deadline.after cadence.victory → p'.attempt = p.attempt →
      ∃ q, Plays p' beats q ∧ q.attempt.display = p'.attempt.display) :
    ∃ q, Plays p (⟨timer.deadline.toNat, [.render p.attempt.display (.victory index)]⟩ :: beats) q ∧
      q.attempt.display = p.attempt.display := by
  have fired : (p.dequeue []).fire timer =
      ((p.dequeue []).atWork.deliver (.render p.attempt.display (.victory index))).schedule
        (timer.deadline.after p.replay.delays.victory) (.victory (index + 1)) := by
    rw [fire_eq, task]
    simp only [celebrate, if_pos more]
    rfl
  have firing : Firing ((p.dequeue []).atWork.deliver (.render p.attempt.display (.victory index)))
      cadence := ⟨rfl, rfl, poised.delays⟩
  obtain ⟨q, rest, display⟩ := next (firing.schedule
    (timer.deadline.after p.replay.delays.victory) (.victory (index + 1))) rfl
    (by rw [poised.delays]) rfl
  refine ⟨q, poised.plays ?_ ?_, display⟩
  · rw [fired]
    rfl
  · rw [fired]
    exact rest

/-- Nothing is delivered when the end is scheduled. -/
lemma delivered_scheduleTail (p : Performance) (deadline : Millis) :
    (p.scheduleTail deadline).delivered = p.delivered := by
  obtain ⟨later, task, -, scheduled⟩ := p.scheduleTail_eq deadline
  rw [scheduled]
  rfl

/-- Behind the last entry comes the finale. -/
lemma plays_scheduleTail {deadline : Millis} {time : Nat} (firing : Firing p cadence)
    (ends : deadline.toNat = clip time) :
    ∃ q, Plays (p.scheduleTail deadline)
        (finale cadence p.attempt.verdict p.attempt.display time) q ∧
      q.attempt.display = p.attempt.display := by
  unfold finale scheduleTail
  by_cases success : p.attempt.verdict = .success
  · simp only [if_pos success, firing.delays]
    have first := toNat_after_clip ends cadence.victory
    have second := toNat_after_clip first cadence.victory
    have third := toNat_after_clip second cadence.victory
    rw [show time + 3 * cadence.victory.toNat =
        time + cadence.victory.toNat + cadence.victory.toNat + cadence.victory.toNat from by omega,
      show time + 2 * cadence.victory.toNat =
        time + cadence.victory.toNat + cadence.victory.toNat from by omega,
      ← first, ← second, ← third]
    -- each picture schedules the next one from its own deadline
    refine plays_victory (firing.schedule _ _) rfl (by decide) ?_
    intro p₁ timer₁ poised₁ task₁ deadline₁ same₁
    simp only at deadline₁
    rw [← deadline₁, show p.attempt = p₁.attempt from same₁.symm]
    refine plays_victory poised₁ task₁ (by decide) ?_
    intro p₂ timer₂ poised₂ task₂ deadline₂ same₂
    rw [← deadline₂, ← same₂]
    exact plays_last_victory poised₂ task₂
  · simp only [if_neg success, firing.delays, ← toNat_after_clip ends cadence.step]
    exact plays_complete (firing.schedule _ _) rfl

/-- A replay draws the picture that belongs to the action. -/
lemma picture_eq (action : Action) : picture action = framed action := by
  cases action <;> rfl

/-- What taking and showing the first entry leaves to be played. -/
structure Shows (p : Performance) (entry : Entry) (entries : List Entry) (events : List Event)
    (p' : Performance) : Prop where
  delivered : p'.delivered = events.reverse ++ p.delivered
  journal : p'.attempt.journal.toList = entries
  verdict : p'.attempt.verdict = p.attempt.verdict
  moments : moments p.attempt.display
      (presented p.replay.dedupe p.attempt.marks.animated (entry :: entries)) =
    events :: moments p'.attempt.display
      (presented p'.replay.dedupe p'.attempt.marks.animated entries)
  lastPose : lastPose p.attempt.display
      (presented p.replay.dedupe p.attempt.marks.animated (entry :: entries)) =
    lastPose p'.attempt.display (presented p'.replay.dedupe p'.attempt.marks.animated entries)

/-- Showing an entry delivers its moment, marks its block and moves the agent that is shown. -/
lemma shows_present (p : Performance) (entry : Entry) :
    ∃ events, Shows p entry p.attempt.journal.toList events (p.present entry) := by
  have marked := animated_mark p.attempt.marks entry.block
  unfold present
  by_cases skip : (p.attempt.marks.seen .animate entry.block && p.replay.dedupe) = true
  · have skip' : (p.attempt.marks.animated.contains entry.block && p.replay.dedupe) = true := skip
    simp only [if_pos skip]
    refine ⟨[], rfl, rfl, rfl, ?_, ?_⟩
    · simp only [presented, if_pos skip', marked, Performance.moments]
    · simp only [presented, if_pos skip', marked, Performance.lastPose]
  · have skip' : ¬(p.attempt.marks.animated.contains entry.block && p.replay.dedupe) = true := skip
    simp only [if_neg skip]
    refine ⟨[_, _], rfl, rfl, rfl, ?_, ?_⟩
    · simp only [presented, if_neg skip', animate, deliver, picture_eq, marked, Performance.moments]
    · simp only [presented, if_neg skip', animate, deliver, marked, Performance.lastPose]

/-- The first entry of a journal is the one that is taken. -/
lemma pop?_of_toList {journal : Journal} {entry : Entry} {entries : List Entry}
    (list : journal.toList = entry :: entries) :
    ∃ rest, journal.pop? = some (entry, rest) ∧ rest.toList = entries := by
  cases first : journal.pop? with
  | none => cases (Journal.pop?_eq_none_iff.1 first).symm.trans list
  | some taken =>
    obtain ⟨entry', rest⟩ := taken
    obtain ⟨rfl, rfl⟩ := List.cons.inj (list.symm.trans (Journal.toList_of_pop? first))
    exact ⟨rest, rfl, rfl⟩

/-- A timer for a step shows the first entry, and schedules the next step or the tail. -/
lemma Poised.step {entries : List Entry} {entry : Entry} (poised : Poised p cadence timer)
    (task : timer.task = .step) (list : p.attempt.journal.toList = entry :: entries) :
    ∃ p' events, Shows p entry entries events p' ∧ Firing p' cadence ∧
      (p.dequeue []).fire timer =
        if entries = [] then p'.scheduleTail timer.deadline
        else p'.schedule (timer.deadline.after cadence.step) .step := by
  obtain ⟨rest, first, rfl⟩ := pop?_of_toList list
  obtain ⟨events, shows⟩ := shows_present ((p.dequeue []).atWork.take rest) entry
  have unmoved := unmoved_present ((p.dequeue []).atWork.take rest) entry
  have fired := step_of_some (p := (p.dequeue []).atWork) first timer.deadline
  refine ⟨_, events, ⟨shows.delivered, shows.journal, shows.verdict, shows.moments, shows.lastPose⟩,
    ⟨unmoved.queue, unmoved.stage, unmoved.delays.trans poised.delays⟩, ?_⟩
  rw [fire_eq, task]
  simp only [fired, Journal.isEmpty_iff]
  rw [← poised.delays]
  rfl

/-- A timer for a step plays all entries and the finale. -/
lemma plays_steps {entries : List Entry} {entry : Entry} {time : Nat}
    (poised : Poised p cadence timer) (task : timer.task = .step)
    (ends : timer.deadline.toNat = clip (time + cadence.step.toNat))
    (list : p.attempt.journal.toList = entry :: entries) :
    let shown := presented p.replay.dedupe p.attempt.marks.animated (entry :: entries)
    ∃ q, Plays p (stepBeats cadence.step.toNat time (moments p.attempt.display shown) ++
        finale cadence p.attempt.verdict (lastPose p.attempt.display shown)
          (time + (entries.length + 1) * cadence.step.toNat)) q ∧
      q.attempt.display = lastPose p.attempt.display shown := by
  intro shown
  induction entries generalizing p timer entry time with
  | nil =>
    obtain ⟨p', events, shows, firing, fired⟩ := poised.step task list
    rw [if_pos rfl] at fired
    obtain ⟨q, rest, display⟩ := plays_scheduleTail firing ends
    refine ⟨q, ?_, ?_⟩
    · rw [shows.moments, shows.lastPose, stepBeats_cons, ← ends, ← shows.verdict]
      refine poised.plays ?_ ?_
      · rw [fired, delivered_scheduleTail, shows.delivered]
      · rw [fired]
        simpa [presented, Performance.moments, stepBeats, Performance.lastPose] using rest
    · rw [shows.lastPose]
      exact display
  | cons next entries ih =>
    obtain ⟨p', events, shows, firing, fired⟩ := poised.step task list
    rw [if_neg (List.cons_ne_nil _ _)] at fired
    obtain ⟨q, rest, display⟩ := ih (firing.schedule (timer.deadline.after cadence.step) .step) rfl
      (toNat_after_clip ends cadence.step) shows.journal
    refine ⟨q, ?_, ?_⟩
    · rw [shows.moments, shows.lastPose, stepBeats_cons, ← ends, ← shows.verdict]
      refine poised.plays ?_ ?_
      · rw [fired]
        exact shows.delivered
      · rw [fired, show time + ((next :: entries).length + 1) * cadence.step.toNat =
          time + cadence.step.toNat + (entries.length + 1) * cadence.step.toNat from by
            rw [List.length_cons, Nat.succ_mul (entries.length + 1)]
            omega]
        exact rest
    · rw [shows.lastPose]
      exact display

/-- A replay that has been started plays its timeline, and then shows the last pose. -/
theorem plays_timeline {start : Millis} (poised : Poised p cadence timer)
    (task : timer.task = .step) (deadline : timer.deadline = start.after cadence.step) :
    ∃ q, Plays p (timeline p.replay.dedupe cadence start p.attempt) q ∧
      q.attempt.display = lastPose p.attempt.display
        (presented p.replay.dedupe p.attempt.marks.animated p.attempt.journal.toList) := by
  have ends : timer.deadline.toNat = clip (start.toNat + cadence.step.toNat) := by
    rw [deadline, Millis.toNat_after]
    rfl
  unfold timeline
  cases list : p.attempt.journal.toList with
  | nil =>
    -- the empty step: nothing is taken and the tail follows one step later
    have none := Journal.pop?_eq_none_iff.2 list
    have fired : (p.dequeue []).fire timer = (p.dequeue []).atWork.scheduleTail timer.deadline := by
      rw [fire_eq, task]
      exact step_of_none (p := (p.dequeue []).atWork) none timer.deadline
    obtain ⟨q, rest, display⟩ := plays_scheduleTail poised.firing ends
    refine ⟨q, ?_, display⟩
    simp only [presented, List.isEmpty_nil, if_pos, stepBeats_cons, ← ends]
    refine poised.plays ?_ ?_
    · rw [fired, delivered_scheduleTail]
      rfl
    · rw [fired, List.length_singleton, Nat.one_mul]
      exact rest
  | cons entry entries =>
    have some :
        (presented p.replay.dedupe p.attempt.marks.animated (entry :: entries)).isEmpty = false := rfl
    simp only [some, Bool.false_eq_true, if_false, length_moments, length_presented,
      List.length_cons]
    exact plays_steps poised task ends list

/-- Steps come one after the other, the last one after as many delays as there are steps. -/
lemma inTime_stepBeats (step start : Nat) (moments : List (List Event)) :
    InTime (stepBeats step start moments) ∧
      ∀ beat ∈ stepBeats step start moments, beat.time ≤ clip (start + moments.length * step) := by
  constructor
  · unfold InTime stepBeats
    rw [List.pairwise_iff_getElem]
    intro i j _ _ less
    rw [List.getElem_mapIdx, List.getElem_mapIdx]
    refine clip_le_clip (Nat.add_le_add_left (Nat.mul_le_mul_right step ?_) start)
    omega
  · intro beat mem
    unfold stepBeats at mem
    obtain ⟨i, bound, rfl⟩ := List.mem_mapIdx.1 mem
    exact clip_le_clip (Nat.add_le_add_left (Nat.mul_le_mul_right step bound) start)

/-- So do the beats of the finale, none of them before the last step. -/
lemma inTime_finale (cadence : Cadence) (verdict : Verdict) (pose : Pose) (time : Nat) :
    InTime (finale cadence verdict pose time) ∧
      ∀ beat ∈ finale cadence verdict pose time, clip time ≤ beat.time := by
  unfold finale InTime
  by_cases success : verdict = .success
  · simp only [if_pos success, List.pairwise_cons, List.forall_mem_cons, List.not_mem_nil,
      false_implies, implies_true, and_true, true_and]
    refine ⟨⟨⟨clip_le_clip ?_, clip_le_clip ?_⟩, clip_le_clip ?_, .nil⟩,
      clip_le_clip ?_, clip_le_clip ?_, clip_le_clip ?_⟩ <;> omega
  · simp only [if_neg success, List.pairwise_cons, List.forall_mem_cons, List.not_mem_nil,
      false_implies, implies_true, and_true, true_and]
    exact ⟨.nil, clip_le_clip (Nat.le_add_right _ _)⟩

/-- A timeline is in time. -/
lemma inTime_timeline (dedupe : Bool) (cadence : Cadence) (start : Millis) (attempt : Attempt) :
    InTime (timeline dedupe cadence start attempt) := by
  unfold timeline
  refine List.pairwise_append.2 ⟨(inTime_stepBeats _ _ _).1, (inTime_finale _ _ _ _).1, ?_⟩
  intro a mem b mem'
  exact Nat.le_trans ((inTime_stepBeats _ _ _).2 a mem) ((inTime_finale _ _ _ _).2 b mem')

/-- Every replay that waits for a timer plays some beats. -/
lemma plays_of_pending (single : p.replay.queue = [timer])
    (current : timer.generation = p.replay.generation) (busy : p.replay.stage ≠ .drained) :
    ∃ beats q, Plays p beats q := by
  -- after the timer has fired there is less work
  induction work : p.work using Nat.strongRecOn generalizing p timer with
  | ind n ih =>
    have less : ((p.dequeue []).fire timer).work < n := by
      rw [← work, work_dequeue single]
      exact work_fire_lt _ timer
    obtain ⟨events, delivered⟩ := ((spared_dequeue p []).trans (spared_fire _ timer)).delivered
    have news : ((p.dequeue []).fire timer).delivered = events.reverse.reverse ++ p.delivered := by
      rw [List.reverse_reverse]
      exact delivered.symm
    obtain ⟨next, single', current', -, stage⟩ | ⟨none, stage⟩ :=
      fire_leaves (p := p.dequeue []) rfl timer
    · have busy' : ((p.dequeue []).fire timer).replay.stage ≠ .drained := by
        rw [stage]
        exact Stage.noConfusion
      obtain ⟨beats, q, rest⟩ := ih _ less single' current' busy' rfl
      exact ⟨_, q, .beat single current busy news rest⟩
    · exact ⟨_, _, .beat single current busy news (.drained none stage)⟩

/-- The beats that a replay plays are in time, none of them before the timer that it waits for. -/
lemma Plays.inTime (plays : Plays p beats q) :
    InTime beats ∧
      ∀ timer, p.replay.queue = [timer] → ∀ beat ∈ beats, timer.deadline.toNat ≤ beat.time := by
  induction plays with
  | drained => exact ⟨.nil, fun _ _ _ mem => absurd mem List.not_mem_nil⟩
  | @beat p q timer events beats single _ _ _ rest ih =>
    obtain ⟨inTime, bound⟩ := ih
    have later : ∀ beat ∈ beats, timer.deadline.toNat ≤ beat.time := by
      intro beat mem
      obtain ⟨next, single', -, le, -⟩ | ⟨none, stage⟩ :=
        fire_leaves (p := p.dequeue []) rfl timer
      · exact Nat.le_trans (UInt64.le_iff_toNat_le.1 le) (bound next single' beat mem)
      · cases rest with
        | drained => cases mem
        | beat single' => cases none.symm.trans single'
    refine ⟨List.pairwise_cons.2 ⟨later, inTime⟩, ?_⟩
    intro timer' single' beat mem
    cases single.symm.trans single'
    rcases List.mem_cons.1 mem with rfl | mem
    · exact Nat.le_refl _
    · exact later beat mem

/-- A replay is drained just if it has no beats to play. -/
lemma Plays.drained_iff (plays : Plays p beats q) : p.replay.stage = .drained ↔ beats = [] := by
  cases plays with
  | drained _ stage => exact iff_of_true stage rfl
  | beat _ _ stage => exact iff_of_false stage (List.cons_ne_nil _ _)

/-- Only the last beat announces the end. -/
lemma Plays.unfinished (plays : Plays p beats q) :
    ∀ beat ∈ beats.dropLast, ∀ verdict, .done verdict ∉ beat.events := by
  induction plays with
  | drained => exact fun _ mem => absurd mem List.not_mem_nil
  | @beat p q timer events beats single _ _ delivered rest ih =>
    by_cases last : beats = []
    · rw [last]
      exact fun _ mem => absurd mem List.not_mem_nil
    · rw [List.dropLast_cons_of_ne_nil last]
      refine List.forall_mem_cons.2 ⟨?_, ih⟩
      intro verdict mem
      obtain ⟨news, same, none⟩ := unfinished_fire (mt rest.drained_iff.1 last)
      have parts : events.reverse = news := List.append_cancel_right (delivered.symm.trans same)
      exact none verdict (parts ▸ List.mem_reverse.2 mem)

end Performance

namespace Replay

open Performance (timeline due presented lastPose)

/-- A replay that has been started waits for its first step. -/
lemma poised_of_start {replay started : Replay} {attempt : Attempt} {cadence : Cadence}
    {start : Millis} (empty : replay.queue = [])
    (starts : replay.start attempt cadence start = .ok started) (delivered : List Event) :
    ∃ timer, Performance.Poised ⟨started, attempt, delivered⟩ cadence timer ∧ timer.task = .step ∧
      timer.deadline = start.after cadence.step ∧ started.dedupe = replay.dedupe := by
  obtain ⟨idle, settled⟩ := start_inv starts
  rw [start_of_idle idle settled, empty] at starts
  cases starts
  exact ⟨_, ⟨rfl, rfl, by simp, rfl⟩, rfl, rfl, rfl⟩

/-- A replay that starts plays its timeline. -/
lemma plays_of_start {replay started : Replay} {attempt : Attempt} {cadence : Cadence}
    {start : Millis} (empty : replay.queue = [])
    (starts : replay.start attempt cadence start = .ok started) (delivered : List Event) :
    ∃ q, Performance.Plays ⟨started, attempt, delivered⟩
        (timeline replay.dedupe cadence start attempt) q ∧
      q.attempt.display = lastPose attempt.display
        (presented replay.dedupe attempt.marks.animated attempt.journal.toList) := by
  obtain ⟨timer, poised, task, deadline, dedupe⟩ := poised_of_start empty starts delivered
  rw [← dedupe]
  exact Performance.plays_timeline poised task deadline

/-- A replay that is idle starts on any settled attempt. After any advances, in any order, it has
delivered the beats of its timeline that were due at one of them, and it is drained when that is all
of them. -/
theorem start_delivers_timeline {replay : Replay} (attempt : Attempt) (reachable : replay.Reachable)
    (idle : replay.stage = .idle) (settled : attempt.verdict ≠ .unset) (cadence : Cadence)
    (start : Millis) (nows : List Millis) :
    ∃ started, replay.start attempt cadence start = .ok started ∧
      ((Performance.mk started attempt []).advances nows).delivered.reverse =
        ((timeline replay.dedupe cadence start attempt).filter fun beat =>
          nows.any fun now => beat.time ≤ now.toNat).flatMap Beat.events ∧
      (((Performance.mk started attempt []).advances nows).replay.stage = .drained ↔
        ∀ beat ∈ timeline replay.dedupe cadence start attempt,
          ∃ now ∈ nows, beat.time ≤ now.toNat) := by
  have starts := start_of_idle idle settled cadence start
  obtain ⟨q, plays, -⟩ := plays_of_start (reachable.steady.queue_of_idle idle) starts []
  obtain ⟨delivered, rest⟩ := plays.advances (Performance.inTime_timeline _ _ _ _) nows
  refine ⟨_, starts, ?_, ?_⟩
  · rw [delivered, List.append_nil, List.reverse_reverse]
    rfl
  · rw [rest.drained_iff, List.filter_eq_nil_iff]
    simp [due]

/-- A failure with two entries, replayed up to the first of them. -/
theorem start_delivers_first_entry :
    ∃ started attempt, (Replay.idle true).start attempt ⟨100, 300⟩ 5 = .ok started ∧
      ((Performance.mk started attempt []).advances [120, 7]).delivered.reverse =
        [.highlight "a", .render ⟨⟨1, 0⟩, .east⟩ .step] := by
  obtain ⟨started, starts, delivered, -⟩ := start_delivers_timeline
    ⟨⟨[⟨"a", .move ⟨0, 0⟩ ⟨1, 0⟩⟩, ⟨"b", .bump ⟨1, 0⟩ .east⟩], []⟩, .empty,
      ⟨⟨1, 0⟩, .east⟩, ⟨⟨0, 0⟩, .east⟩, .failure⟩ (.idle true) rfl (by decide) ⟨100, 300⟩ 5 [120, 7]
  exact ⟨started, _, starts, delivered.trans (by decide)⟩

end Replay

end BlockPuzzle
