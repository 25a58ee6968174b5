import BlockPuzzle.Compass

/-!
# Endings and verdicts

A run of a program ends in one of five ways. The verdict follows from the ending and from where the
agent stands.
-/

namespace BlockPuzzle

/-- How a run ended. -/
inductive Ending where
  | finished
  | crashed
  | completed
  | exhausted
  | fault (detail : String)
  deriving DecidableEq

/-- The name of an ending. -/
def Ending.name : Ending → String
  | finished => "finished"
  | crashed => "crashed"
  | completed => "completed"
  | exhausted => "budget-exhausted"
  | fault _ => "fault"

/-- What became of an attempt. -/
inductive Verdict where
  | unset
  | success
  | failure
  | timeout
  | error
  deriving DecidableEq

namespace Verdict

/-- All verdicts. -/
def all : List Verdict :=
  [unset, success, failure, timeout, error]

/-- The name of a verdict. -/
def name : Verdict → String
  | unset => "unset"
  | success => "success"
  | failure => "failure"
  | timeout => "timeout"
  | error => "error"

/-- The verdict with a name. -/
def ofName? (s : String) : Option Verdict :=
  all.find? (fun v => v.name == s)

end Verdict

/-- The verdict on a run that ended at `position`. -/
def Ending.classify (ending : Ending) (position finish : Point) : Verdict :=
  match ending with
  | finished => if position = finish then .success else .failure
  | completed => if position = finish then .success else .failure
  | crashed => .failure
  | exhausted => .timeout
  | fault _ => .error

end BlockPuzzle
