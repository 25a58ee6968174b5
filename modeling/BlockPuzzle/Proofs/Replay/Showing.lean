import BlockPuzzle.Proofs.Attempt.Transcript
import BlockPuzzle.Proofs.Replay.Timeline

/-!
# What a replay shows

All events of a timeline, whenever they come: those of the entries that are shown, at the poses to
which these lead, and then those of the end. These are all entries or, if blocks are shown only
once, those of `firstOfBlock`. A replay that plays its timeline has delivered these events when it is
drained.
-/

namespace BlockPuzzle

/-- The events that show an entry, with the pose to which it leads. -/
def showEntry : Entry × Pose → List Event
  | (entry, pose) => [.highlight entry.block, .render pose (Performance.framed entry.action)]

/-- The events at the end. -/
def showEnd (verdict : Verdict) (pose : Pose) : List Event :=
  if verdict = .success then
    [.render pose (.victory 0), .render pose (.victory 1), .render pose (.victory 2), .done verdict]
  else [.done verdict]

/-- The entries whose block does not occur earlier. -/
def firstOfBlock (entries : List Entry) : List Entry :=
  entries.zipIdx.filterMap fun (entry, i) =>
    if entry.block ∈ (entries.take i).map Entry.block then none else some entry

namespace Performance

/-! ## The entries that are shown -/

/-- Every entry is shown when blocks may be shown again. -/
lemma presented_all (marked : List BlockId) (entries : List Entry) :
    (presented false marked entries).filterMap id = entries := by
  induction entries generalizing marked with
  | nil => rfl
  | cons entry entries ih =>
    rw [presented, Bool.and_false, if_neg Bool.false_ne_true]
    exact congrArg (entry :: ·) (ih _)

/-- With the rule those are shown whose block is not marked by an earlier one. -/
lemma presented_once {marked : List BlockId} {earlier : List Entry}
    (marks : ∀ block, block ∈ marked ↔ block ∈ earlier.map Entry.block) (entries : List Entry) :
    (presented true marked entries).filterMap id =
      (entries.zipIdx earlier.length).filterMap fun (entry, i) =>
        if entry.block ∈ ((earlier ++ entries).take i).map Entry.block then none
        else some entry := by
  induction entries generalizing marked earlier with
  | nil => rfl
  | cons entry entries ih =>
    -- the marks stand for the blocks of the entries before this one, in any order
    have marks' : ∀ block, block ∈ marked.insert entry.block ↔
        block ∈ (earlier ++ [entry]).map Entry.block := by
      intro block
      rw [List.mem_insert_iff, marks]
      simp [or_comm]
    have rest := ih marks'
    rw [List.length_append, List.append_assoc] at rest
    have here : (earlier ++ entry :: entries).take earlier.length = earlier := List.take_left
    rw [presented, List.zipIdx_cons]
    by_cases seen : entry.block ∈ earlier.map Entry.block
    · have marked : marked.contains entry.block = true :=
        List.contains_iff_mem.2 ((marks _).2 seen)
      rw [marked, List.filterMap_cons_none (by rfl),
        List.filterMap_cons_none (by simp [here, seen])]
      exact rest
    · have unmarked : marked.contains entry.block = false :=
        Bool.eq_false_iff.2 fun e => seen ((marks _).1 (List.contains_iff_mem.1 e))
      rw [unmarked, List.filterMap_cons_some (b := entry) (by rfl),
        List.filterMap_cons_some (b := entry) (by simp [here, seen])]
      exact congrArg _ rest

/-- From a start without marks those are shown whose block does not occur earlier. -/
lemma presented_firstOfBlock (entries : List Entry) :
    (presented true [] entries).filterMap id = firstOfBlock entries := by
  have none : ∀ block, block ∈ ([] : List BlockId) ↔ block ∈ ([] : List Entry).map Entry.block :=
    fun _ => Iff.rfl
  exact presented_once none entries

/-! ## The events of a timeline -/

/-- What becomes of entries shows those that are shown. -/
lemma flatten_moments (pose : Pose) (shown : List (Option Entry)) :
    (moments pose shown).flatten = (traced pose (shown.filterMap id)).flatMap showEntry := by
  induction shown generalizing pose with
  | nil => rfl
  | cons entry shown ih =>
    cases entry with
    | none => exact ih pose
    | some entry =>
      rw [moments, List.flatten_cons, ih]
      rfl

/-- The last pose is where the entries that were shown lead. -/
lemma lastPose_eq (pose : Pose) (shown : List (Option Entry)) :
    lastPose pose shown = carryOut pose (shown.filterMap id) := by
  induction shown generalizing pose with
  | nil => rfl
  | cons entry shown ih =>
    cases entry with
    | none => exact ih pose
    | some entry => exact ih _

/-- The events of the beats are those of the moments, in order. -/
lemma flatMap_stepBeats (step start : Nat) (moments : List (List Event)) :
    (stepBeats step start moments).flatMap Beat.events = moments.flatten := by
  induction moments generalizing start with
  | nil => rfl
  | cons events moments ih => rw [stepBeats_cons, List.flatMap_cons, ih, List.flatten_cons]

/-- All events of a timeline show the entries and the end. -/
theorem flatMap_timeline (dedupe : Bool) (cadence : Cadence) (start : Millis) (attempt : Attempt) :
    let shown := (presented dedupe attempt.marks.animated attempt.journal.toList).filterMap id
    (timeline dedupe cadence start attempt).flatMap Beat.events =
      (traced attempt.display shown).flatMap showEntry ++
        showEnd attempt.verdict (carryOut attempt.display shown) := by
  intro shown
  unfold timeline
  rw [List.flatMap_append, flatMap_stepBeats, lastPose_eq]
  congr 1
  · rw [← flatten_moments]
    cases presented dedupe attempt.marks.animated attempt.journal.toList with
    | nil => rfl
    | cons => rfl
  · unfold finale showEnd
    by_cases success : attempt.verdict = .success
    · rw [if_pos success, if_pos success]
      rfl
    · rw [if_neg success, if_neg success]
      rfl

/-! ## Playing all beats -/

variable {p q : Performance} {beats : List Beat}

/-- Beats that are played spare all that one timer does. -/
lemma Plays.spared (plays : Plays p beats q) : Spared p q := by
  induction plays with
  | drained => exact .refl _
  | @beat p q timer _ _ _ _ _ _ _ ih =>
    exact ((spared_dequeue p []).trans (spared_fire _ timer)).trans ih

/-- An advance delivers some of the events that are left, and leaves the others to be played. -/
lemma Plays.advance (plays : Plays p beats q) (now : Millis) :
    ∃ beats', Plays (p.advance now).2 beats' q ∧
      (p.advance now).2.delivered.reverse ++ beats'.flatMap Beat.events =
        p.delivered.reverse ++ beats.flatMap Beat.events := by
  obtain ⟨delivered, rest⟩ := plays.advance_due now
  refine ⟨_, rest, ?_⟩
  rw [delivered, List.reverse_append, List.reverse_reverse, List.append_assoc,
    ← List.flatMap_append, List.takeWhile_append_dropWhile]

/-- A replay that is drained has no beats to play. -/
lemma Plays.eq_of_drained (plays : Plays p beats q) (drained : p.replay.stage = .drained) :
    beats = [] ∧ q = p := by
  cases plays with
  | drained => exact ⟨rfl, rfl⟩
  | beat _ _ stage => exact absurd drained stage

/-- A replay that plays on without timers is drained. -/
lemma Plays.drained_of_empty (plays : Plays p beats q) (empty : p.replay.queue = []) :
    p.replay.stage = .drained := by
  cases plays with
  | drained _ stage => exact stage
  | beat single => cases empty.symm.trans single

end Performance

end BlockPuzzle
