import Mathlib.Data.List.Dedup
import BlockPuzzle.Proofs.Attempt.Run

/-!
# Marks of a run

A run marks the blocks that look around, each of them once, and wipes no marks: `Attempt.execute_marks`
reads the marks off the journal, whatever the rule for senses is. `Marks.Exactly` is what the marks for
either phase are said to be.
-/

namespace BlockPuzzle

/-! ## Marked blocks -/

/-- The marked blocks are those of a list, each of them once. -/
structure Marks.Exactly (marked blocks : List BlockId) : Prop where
  nodup : marked.Nodup
  mem_iff : ∀ block, block ∈ marked ↔ block ∈ blocks

namespace Marks.Exactly

variable {marked blocks : List BlockId}

/-- Where no block is listed, none is marked. -/
lemma nil : Exactly [] [] :=
  ⟨.nil, fun _ => .rfl⟩

/-- Marking one more block lists it. -/
lemma insert (exactly : Exactly marked blocks) (block : BlockId) :
    Exactly (marked.insert block) (blocks ++ [block]) where
  nodup := exactly.nodup.insert
  mem_iff other := by
    rw [List.mem_insert_iff, exactly.mem_iff, List.mem_append, List.mem_singleton, or_comm]

/-- As many blocks are marked as are listed without repetition. -/
lemma length_eq (exactly : Exactly marked blocks) : marked.length = blocks.dedup.length := by
  refine List.Perm.length_eq ?_
  refine (List.perm_ext_iff_of_nodup exactly.nodup (List.nodup_dedup blocks)).2 fun block => ?_
  rw [exactly.mem_iff, List.mem_dedup]

end Marks.Exactly

/-! ## Looks -/

/-- The blocks of the entries that are looks at the surroundings, one for each look. -/
def sensing (entries : List Entry) : List BlockId :=
  (entries.filter (·.action.isSense)).map Entry.block

/-- Another entry adds its block if it is a look. -/
lemma sensing_concat (entries : List Entry) (entry : Entry) :
    sensing (entries ++ [entry]) =
      sensing entries ++ if entry.action.isSense then [entry.block] else [] := by
  unfold sensing
  rw [List.filter_append, List.map_append]
  cases look : entry.action.isSense with
  | true => simp [look]
  | false => simp [look]

namespace Walk

/-- The blocks that have looked are exactly those marked for it, and the marks were wiped so often. -/
structure Marked (wipes : Nat) (walk : Walk) : Prop where
  sensed : Marks.Exactly walk.attempt.marks.sensed (sensing walk.attempt.journal.toList)
  wipes : walk.attempt.marks.wipes = wipes

variable {wipes : Nat} {walk walk' : Walk} {entry : Entry}

/-- One more deed is marked if it is a look. -/
lemma Marked.deed (marked : Marked wipes walk) (records : Records walk walk' entry) :
    Marked wipes walk' where
  sensed := by
    rw [records.sensed, records.journal, sensing_concat]
    by_cases look : entry.action.isSense = true
    · rw [if_pos look, if_pos look]
      exact marked.sensed.insert entry.block
    · rw [if_neg look, if_neg look, List.append_nil]
      exact marked.sensed
  wipes := records.wipes.trans marked.wipes

/-- All calls keep the marks in step with the journal. -/
lemma noting_keeps_marked (board : Board) (rule : SenseRule) (wipes : Nat) :
    (host board rule).noting.Keeps (fun p => Marked wipes p.1) fun _ p => Marked wipes p.1 := by
  apply noting_holds
  · intro walk calls walk' request answer block action interrupt marked _ records
    exact marked.deed records
  · intro walk calls marked
    exact marked

end Walk

/-- The execution of a script in a fresh attempt marks exactly the blocks that look around in its
journal, marks none as animated, and leaves the marks unwiped. -/
theorem Attempt.execute_marks (board : Board) (start : Pose) (marks : Marks) (settings : Settings)
    (script : String) :
    let ended := ((fresh start marks.wipe).execute board settings script).2
    Marks.Exactly ended.marks.sensed (sensing ended.journal.toList) ∧
      ended.marks.animated = [] ∧ ended.marks.wipes = marks.wipes + 1 := by
  intro ended
  have unmarked : Walk.Marked (marks.wipes + 1) (Walk.start (fresh start marks.wipe)) := ⟨.nil, rfl⟩
  obtain ⟨walk, report, executed, -, spares, -, ends⟩ := execute_keeps
    (Walk.noting_keeps_marked board settings.senseRule (marks.wipes + 1)) script rfl unmarked
  have left : ended = { walk.attempt with verdict := report.verdict } := congrArg Prod.snd executed
  rw [left]
  exact ⟨ends.holds.sensed, spares.animated, ends.holds.wipes⟩

end BlockPuzzle
