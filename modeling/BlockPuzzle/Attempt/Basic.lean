import BlockPuzzle.Attempt.Journal
import BlockPuzzle.Attempt.Marks
import BlockPuzzle.Attempt.Verdict

/-!
# Attempts

An attempt holds what belongs to one run: the journal, the marks, where the agent really is, where
it is shown, and the verdict once there is one.
-/

namespace BlockPuzzle

/-- The state of one run. -/
structure Attempt where
  journal : Journal
  marks : Marks
  logical : Pose
  display : Pose
  verdict : Verdict

namespace Attempt

/-- An attempt that has not begun. -/
def fresh (start : Pose) (marks : Marks) : Attempt :=
  ⟨.empty, marks, start, start, .unset⟩

/-- Adds an entry to the journal. -/
def record (attempt : Attempt) (block : BlockId) (action : Action) : Attempt :=
  { attempt with journal := attempt.journal.push ⟨block, action⟩ }

/-- Gives the attempt its verdict. Only the first one counts: a later one is refused and the one that
stands is returned. -/
def settle (attempt : Attempt) (verdict : Verdict) : Except Verdict Attempt :=
  if attempt.verdict = .unset then .ok { attempt with verdict } else .error attempt.verdict

end Attempt

/-- The words for a verdict that was refused because the attempt called `run` has one. -/
def settledMessage (run : String) (standing : Verdict) : String :=
  "run " ++ run ++ " already settled as " ++ standing.name

end BlockPuzzle
