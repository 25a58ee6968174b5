import BlockPuzzle.Proofs.Attempt.Senses
import BlockPuzzle.Proofs.Replay.Steady

/-!
# Tallies

However far a replay has come, the entries it has taken and those that are left make up the journal
that it began with, and its counters and marks tell of exactly the entries taken: `Replay.Tally`. A
timer that fires keeps the tally (`Tally.fire`), and so does every advance (`Tally.advance`), behind
which no timer is due any more (`Performance.late_advance`).
-/

namespace BlockPuzzle

namespace Performance

variable {p : Performance}

/-! ## Showing entries -/

/-- What presenting an entry counts, and that it marks the block: every entry is animated or skipped,
and under the rule that blocks are shown only once it is animated if its block is marked now. -/
structure Counts (p q : Performance) (block : BlockId) : Prop where
  dedupe : q.replay.dedupe = p.replay.dedupe
  taken : q.replay.taken = p.replay.taken
  marked : q.attempt.marks.animated = p.attempt.marks.animated.insert block
  sum : q.replay.animated + q.replay.skipped = p.replay.animated + p.replay.skipped + 1
  once : p.replay.dedupe = true →
    q.replay.animated + p.attempt.marks.animated.length =
      p.replay.animated + q.attempt.marks.animated.length
  all : p.replay.dedupe = false → q.replay.animated = p.replay.animated + 1

/-- An entry that is presented is counted once. -/
lemma counts_present (p : Performance) (entry : Entry) : Counts p (p.present entry) entry.block := by
  have marked := animated_mark p.attempt.marks entry.block
  have seen : p.attempt.marks.seen .animate entry.block = true ↔
      entry.block ∈ p.attempt.marks.animated := List.contains_iff_mem
  unfold present
  by_cases skip : (p.attempt.marks.seen .animate entry.block && p.replay.dedupe) = true
  · obtain ⟨before, once⟩ := (Bool.and_eq_true _ _).mp skip
    have same := marked.trans (List.insert_of_mem (seen.1 before))
    simp only [if_pos skip]
    refine ⟨rfl, rfl, marked, rfl, fun _ => ?_, fun all => ?_⟩
    · exact congrArg (p.replay.animated + List.length ·) same.symm
    · cases once.symm.trans all
  · simp only [if_neg skip]
    refine ⟨rfl, rfl, marked, Nat.add_right_comm .., fun once => ?_, fun _ => rfl⟩
    -- the block is marked only now
    have new : entry.block ∉ p.attempt.marks.animated := fun mem =>
      skip ((Bool.and_eq_true _ _).mpr ⟨seen.2 mem, once⟩)
    have longer : (p.attempt.marks.mark .animate entry.block).animated.length =
        p.attempt.marks.animated.length + 1 := by
      rw [marked, List.insert_of_not_mem new, List.length_cons]
    refine Eq.trans ?_ (congrArg (p.replay.animated + ·) longer.symm)
    exact Nat.add_right_comm ..

/-! ## Deadlines -/

/-- When the timers that are due have fired, the one that is left is not. -/
lemma late_fireDue (now : Millis) (fired : Nat) (steady : p.replay.Steady) :
    ∀ timer ∈ (fireDue now fired p).2.replay.queue, now < timer.deadline := by
  fun_induction fireDue now fired p with
  | case1 fired p empty =>
    rw [empty]
    exact fun _ mem => absurd mem List.not_mem_nil
  | case2 fired p timer others queue due current ih =>
    obtain ⟨rfl, -⟩ := steady.single_of_cons queue
    exact ih (steady_fire rfl timer)
  | case3 fired p timer others queue due stale ih =>
    exact absurd (steady.single_of_cons queue).2 stale
  | case4 fired p timer others queue early =>
    -- a steady replay has no timer behind the one that is too early
    obtain ⟨rfl, -⟩ := steady.single_of_cons queue
    rw [queue]
    intro other mem
    obtain rfl := List.mem_singleton.1 mem
    exact UInt64.not_le.1 early

/-- No timer that an advance leaves is due. -/
theorem late_advance (now : Millis) (steady : p.replay.Steady) :
    ∀ timer ∈ (p.advance now).2.replay.queue, now < timer.deadline := by
  have late := late_fireDue now 0 steady
  simp only [advance, settle]
  split
  · exact late
  · exact late

end Performance

namespace Replay

open Performance (counts_present unmoved_present)

/-! ## What the counters tell -/

/-- How far a replay that began with some entries has come, by the rule for blocks that it follows. -/
structure Tally (dedupe : Bool) (entries : List Entry) (replay : Replay) (attempt : Attempt) :
    Prop where
  rule : replay.dedupe = dedupe
  left : attempt.journal.toList = entries.drop replay.taken
  taken_le : replay.taken ≤ entries.length
  sum : replay.animated + replay.skipped = replay.taken
  animated : replay.animated =
    if dedupe then ((entries.take replay.taken).map Entry.block).dedup.length else replay.taken
  marked : Marks.Exactly attempt.marks.animated ((entries.take replay.taken).map Entry.block)

variable {dedupe : Bool} {entries : List Entry} {replay : Replay} {attempt : Attempt}
  {p : Performance}

/-- Timers and stages are not counted. -/
lemma Tally.timed (tally : Tally dedupe entries replay attempt) (queue : List Timer) (serial : Nat)
    (stage : Stage) :
    Tally dedupe entries { replay with queue, nextSerial := serial, stage } attempt :=
  ⟨tally.rule, tally.left, tally.taken_le, tally.sum, tally.animated, tally.marked⟩

/-- The entry that is taken from the journal is the next one of those that the replay began with. -/
lemma Tally.next {entry : Entry} {journal : Journal} (tally : Tally dedupe entries replay attempt)
    (first : attempt.journal.pop? = some (entry, journal)) :
    replay.taken < entries.length ∧
      entries.take (replay.taken + 1) = entries.take replay.taken ++ [entry] ∧
      journal.toList = entries.drop (replay.taken + 1) := by
  have rest : entries.drop replay.taken = entry :: journal.toList := by
    rw [← tally.left, Journal.toList_of_pop? first]
  have lt : replay.taken < entries.length := by
    refine Nat.lt_of_not_le fun le => ?_
    rw [List.drop_of_length_le le] at rest
    cases rest
  rw [List.drop_eq_getElem_cons lt] at rest
  obtain ⟨here, behind⟩ := List.cons.inj rest
  refine ⟨lt, ?_, behind.symm⟩
  rw [← here, List.take_append_getElem lt]

/-- The entry that has been taken from the journal is counted and its block is marked. -/
lemma Tally.present {entry : Entry} {journal : Journal}
    (tally : Tally dedupe entries p.replay p.attempt)
    (first : p.attempt.journal.pop? = some (entry, journal)) :
    Tally dedupe entries ((p.take journal).present entry).replay
      ((p.take journal).present entry).attempt := by
  obtain ⟨lt, taken, rest⟩ := tally.next first
  have unmoved := unmoved_present (p.take journal) entry
  have counts := counts_present (p.take journal) entry
  have now : ((p.take journal).present entry).replay.taken = p.replay.taken + 1 := counts.taken
  have marked : Marks.Exactly ((p.take journal).present entry).attempt.marks.animated
      ((entries.take (p.replay.taken + 1)).map Entry.block) := by
    rw [taken, List.map_append, counts.marked]
    exact tally.marked.insert entry.block
  have animated := tally.animated
  exact {
    rule := counts.dedupe.trans tally.rule
    left := by
      rw [now, ← rest]
      exact congrArg Journal.toList unmoved.journal
    taken_le := by
      rw [now]
      exact lt
    sum := by
      rw [now, counts.sum, ← tally.sum]
      rfl
    animated := by
      rw [now]
      -- under the rule the counter follows the marks, and without it the entries
      cases rule : dedupe with
      | true =>
        have once := counts.once (tally.rule.trans rule)
        rw [rule, if_pos rfl, ← tally.marked.length_eq] at animated
        rw [if_pos rfl, ← marked.length_eq]
        refine Nat.add_right_cancel (once.trans ?_)
        rw [Nat.add_comm]
        exact congrArg _ animated
      | false =>
        have all := counts.all (tally.rule.trans rule)
        rw [rule, if_neg Bool.false_ne_true] at animated
        rw [if_neg Bool.false_ne_true, all]
        exact congrArg (· + 1) animated
    marked := by
      rw [now]
      exact marked }

/-! ## Firing -/

/-- The counters do not change when the end is scheduled. -/
lemma Tally.scheduleTail (tally : Tally dedupe entries p.replay p.attempt) (deadline : Millis) :
    Tally dedupe entries (p.scheduleTail deadline).replay (p.scheduleTail deadline).attempt := by
  obtain ⟨later, task, -, scheduled⟩ := p.scheduleTail_eq deadline
  rw [scheduled]
  exact tally.timed ..

/-- A step takes one entry and counts it; nothing else that a timer does is counted. -/
lemma Tally.fire (tally : Tally dedupe entries p.replay p.attempt) (timer : Timer) :
    Tally dedupe entries (p.fire timer).replay (p.fire timer).attempt := by
  have begun : Tally dedupe entries p.atWork.replay p.atWork.attempt := tally.timed ..
  rw [Performance.fire_eq]
  cases timer.task with
  | step =>
    simp only
    cases first : p.atWork.attempt.journal.pop? with
    | none =>
      rw [Performance.step_of_none first]
      exact begun.scheduleTail _
    | some taken =>
      have shown := begun.present first
      rw [Performance.step_of_some first]
      by_cases last : taken.2.isEmpty = true
      · rw [if_pos last]
        exact shown.scheduleTail _
      · rw [if_neg last]
        exact shown.timed ..
  | victory index =>
    simp only [Performance.celebrate]
    by_cases more : index + 1 < victoryPictures
    · rw [if_pos more]
      exact tally.timed ..
    · rw [if_neg more]
      exact tally.timed ..
  | complete => exact tally.timed ..

/-- They still tell the same when timers have fired. -/
lemma Tally.fireDue (tally : Tally dedupe entries p.replay p.attempt) (now : Millis) (fired : Nat) :
    Tally dedupe entries (Performance.fireDue now fired p).2.replay
      (Performance.fireDue now fired p).2.attempt := by
  fun_induction Performance.fireDue now fired p with
  | case1 => exact tally
  | case2 fired p timer others _ _ _ ih =>
    have others : Tally dedupe entries (p.dequeue others).replay (p.dequeue others).attempt :=
      tally.timed ..
    exact ih (others.fire timer)
  | case3 fired p timer others _ _ _ ih => exact ih (tally.timed ..)
  | case4 => exact tally

/-- However many timers an advance fires, the tally is kept. -/
theorem Tally.advance (tally : Tally dedupe entries p.replay p.attempt) (now : Millis) :
    Tally dedupe entries (p.advance now).2.replay (p.advance now).2.attempt := by
  have fired := tally.fireDue now 0
  simp only [Performance.advance, Performance.settle]
  split
  · exact fired.timed ..
  · exact fired

end Replay

end BlockPuzzle
