import BlockPuzzle.Program.Basic

/-!
# Marks

Marks remember which blocks have sensed and which have been animated, each block once, and how often
they were wiped. Several holders can share one set of marks: a `MarksTable` gives every holder a
number.
-/

namespace BlockPuzzle

/-- What a block can be marked for. -/
inductive Phase where
  | sense
  | animate
  deriving DecidableEq

/-- The marked blocks, newest first and without repetition. -/
structure Marks where
  sensed : List BlockId
  animated : List BlockId
  wipes : Nat
  deriving DecidableEq

namespace Marks

/-- No block is marked. -/
def empty : Marks :=
  ⟨[], [], 0⟩

/-- The blocks marked for a phase. -/
def blocks (marks : Marks) : Phase → List BlockId
  | .sense => marks.sensed
  | .animate => marks.animated

/-- Whether a block is marked for a phase. -/
def seen (marks : Marks) (phase : Phase) (block : BlockId) : Bool :=
  (marks.blocks phase).contains block

/-- Marks a block for a phase. -/
def mark (marks : Marks) (phase : Phase) (block : BlockId) : Marks :=
  if marks.seen phase block then marks
  else
    match phase with
    | .sense => { marks with sensed := block :: marks.sensed }
    | .animate => { marks with animated := block :: marks.animated }

/-- Takes all marks away. -/
def wipe (marks : Marks) : Marks :=
  ⟨[], [], marks.wipes + 1⟩

/-- Number of blocks marked for a phase. -/
def count (marks : Marks) (phase : Phase) : Nat :=
  (marks.blocks phase).length

/-- Number of marks. -/
def size (marks : Marks) : Nat :=
  marks.count .sense + marks.count .animate

/-- Marking a block adds it for one phase, if it is not there. -/
theorem blocks_mark (marks : Marks) (phase : Phase) (block : BlockId) (other : Phase) :
    (marks.mark phase block).blocks other =
      if other = phase then (marks.blocks phase).insert block else marks.blocks other := by
  unfold mark
  by_cases seen : marks.seen phase block = true
  · rw [if_pos seen, List.insert_of_mem (List.contains_iff_mem.1 seen)]
    by_cases same : other = phase
    · rw [if_pos same, same]
    · rw [if_neg same]
  · rw [if_neg seen, List.insert_of_not_mem fun mem => seen (List.contains_iff_mem.2 mem)]
    cases phase with
    | sense => cases other <;> rfl
    | animate => cases other <;> rfl

/-- A mark does not count as wiping. -/
theorem wipes_mark (marks : Marks) (phase : Phase) (block : BlockId) :
    (marks.mark phase block).wipes = marks.wipes := by
  unfold mark
  by_cases seen : marks.seen phase block = true
  · rw [if_pos seen]
  · rw [if_neg seen]
    cases phase <;> rfl

end Marks

/-- Sets of marks and, for each holder, which of them it holds. -/
structure MarksTable where
  sets : Array Marks
  holders : Array Nat

namespace MarksTable

/-- One holder of one empty set. -/
def single : MarksTable :=
  ⟨#[Marks.empty], #[0]⟩

/-- The marks that a holder sees. -/
def get? (table : MarksTable) (holder : Nat) : Option Marks :=
  (table.holders[holder]?).bind (table.sets[·]?)

/-- Changes the marks of a holder, and so those of all that share them. -/
def modify (table : MarksTable) (holder : Nat) (f : Marks → Marks) : MarksTable :=
  match table.holders[holder]? with
  | some set => { table with sets := table.sets.modify set f }
  | none => table

/-- A further holder that shares the marks of another one. -/
def share (table : MarksTable) (holder : Nat) : MarksTable :=
  match table.holders[holder]? with
  | some set => { table with holders := table.holders.push set }
  | none => table

/-- A further holder with marks of its own. -/
def fresh (table : MarksTable) : MarksTable :=
  ⟨table.sets.push Marks.empty, table.holders.push table.sets.size⟩

end MarksTable

end BlockPuzzle
