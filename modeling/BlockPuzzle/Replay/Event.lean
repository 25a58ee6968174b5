import BlockPuzzle.Attempt.Verdict
import BlockPuzzle.Program.Basic

/-!
# Events of a replay

A replay shows itself through events: a block is highlighted, the agent is drawn, and the end is
announced. `Event.summary` counts a list of them.
-/

namespace BlockPuzzle

/-- What a drawing of the agent shows. -/
inductive Picture where
  | step
  | crash
  | victory (index : Nat)
  deriving DecidableEq

/-- What a replay shows. -/
inductive Event where
  | highlight (block : BlockId)
  | render (pose : Pose) (picture : Picture)
  | done (verdict : Verdict)
  deriving DecidableEq

namespace Event

/-- The picture that an event draws. -/
def picture? : Event → Option Picture
  | render _ picture => some picture
  | _ => none

/-- The verdict that an event announces. -/
def verdict? : Event → Option Verdict
  | done verdict => some verdict
  | _ => none

/-- A list of events in numbers. -/
structure Summary where
  count : Nat
  finished : Option Verdict
  last : Option Event
  steps : Nat
  crashes : Nat
  victories : Nat
  deriving DecidableEq

/-- Whether a picture belongs to the victory. -/
def isVictory : Picture → Bool
  | .victory _ => true
  | _ => false

/-- Counts events and pictures and finds the first announced verdict. -/
def summary (events : List Event) : Summary :=
  let pictures := events.filterMap picture?
  { count := events.length
    finished := events.findSome? verdict?
    last := events.getLast?
    steps := pictures.countP (· == .step)
    crashes := pictures.countP (· == .crash)
    victories := pictures.countP isVictory }

end Event

end BlockPuzzle
