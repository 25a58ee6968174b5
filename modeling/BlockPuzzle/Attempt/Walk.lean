import BlockPuzzle.Attempt.Basic
import BlockPuzzle.Board.Basic
import BlockPuzzle.Machine.Basic
import BlockPuzzle.Program.Compile
import BlockPuzzle.Digest
import BlockPuzzle.Settings

/-!
# Walks

A walk is a program run by an agent on a board. The board is the host of the machine: commands move
and turn the agent, senses look at the board, and everything goes into the journal of the attempt.
The walk ends at FINISH, at a rejected step, at the end of the program, when the ticks are used up, or
at a fault. `Attempt.execute` compiles a script, walks it and settles the attempt.
-/

namespace BlockPuzzle

/-- What ends a walk from within a command. -/
inductive Interrupt where
  | finish
  | crash (place : Point) (toward : Bearing)
  deriving DecidableEq

/-- The words for an interrupt. -/
def Interrupt.message : Interrupt → String
  | finish => "finish signal"
  | crash place toward => "crashed at " ++ place.text ++ " heading " ++ toward.abbreviation

/-- The state of a walk: the attempt, the first answer that each block got, and how many answers
differed from the first one of their block. -/
structure Walk where
  attempt : Attempt
  firstAnswers : List (BlockId × Bool)
  divergences : Nat

namespace Walk

/-- A walk that has not begun. -/
def start (attempt : Attempt) : Walk :=
  ⟨attempt, [], 0⟩

/-- Puts the agent somewhere and adds what it did to the journal. -/
def act (walk : Walk) (block : BlockId) (action : Action) (pose : Pose) : Walk :=
  { walk with attempt := { walk.attempt.record block action with logical := pose } }

/-- Steps to one side of the agent. A step onto FINISH ends the walk, a rejected one too. -/
def step (board : Board) (side : Side) (block : BlockId) : EStateM Interrupt Walk Unit := fun walk =>
  let pose := walk.attempt.logical
  let toward := pose.facing.toward side
  match board.passage pose.position toward with
  | .clear =>
    let target := pose.position.step toward
    let walk := walk.act block (.move pose.position target) { pose with position := target }
    if board.isFinish target then .error .finish walk else .ok () walk
  | _ => .error (.crash pose.position toward) (walk.act block (.bump pose.position toward) pose)

/-- Turns the agent; only a turn by less than nothing counts as one to the left. -/
def turn (eighths : Int) (block : BlockId) : EStateM Interrupt Walk Unit := fun walk =>
  let pose := walk.attempt.logical
  let target := pose.facing.rotate eighths
  let action : Action :=
    if eighths < 0 then .rotateLeft pose.facing target else .rotateRight pose.facing target
  .ok () (walk.act block action { pose with facing := target })

/-- Obeys a command. -/
def command (board : Board) (command : Command) (block : BlockId) : EStateM Interrupt Walk Unit :=
  match command with
  | .moveForward => step board .ahead block
  | .moveBackward => step board .behind block
  | .turnLeft => turn (-2) block
  | .turnRight => turn 2 block
  | .face target => fun walk => turn (walk.attempt.logical.facing.turnTo target) block walk
  | .finish => fun walk =>
    let pose := walk.attempt.logical
    .error .finish (walk.act block (.finish pose.position) pose)

/-- Looks to one side of the agent. The first look of a block is its first answer; later ones follow
the rule for senses. A block that was marked before the walk has no first answer. -/
def sense (board : Board) (rule : SenseRule) (side : Side) (block : BlockId) :
    EStateM Interrupt Walk Bool := fun walk =>
  let pose := walk.attempt.logical
  let toward := pose.facing.toward side
  let fresh := board.passage pose.position toward == .clear
  if walk.attempt.marks.seen .sense block then
    let first := (walk.firstAnswers.lookup block).getD fresh
    match rule with
    | .firstSticks => .ok first (walk.act block (.sense toward first) pose)
    | .recompute =>
      let differs := if first == fresh then 0 else 1
      let walk := { walk with divergences := walk.divergences + differs }
      .ok fresh (walk.act block (.sense toward fresh) pose)
  else
    let attempt := { walk.attempt with marks := walk.attempt.marks.mark .sense block }
    let walk := { walk with attempt, firstAnswers := (block, fresh) :: walk.firstAnswers }
    .ok fresh (walk.act block (.sense toward fresh) pose)

/-- A board as the host of a machine. -/
def host (board : Board) (rule : SenseRule) : Host Walk Interrupt where
  command := command board
  sense := sense board rule
  notDone walk := .ok (!board.isFinish walk.attempt.logical.position) walk

/-- How a failed tick ends a walk. -/
def endingOf : Fault Interrupt → Ending
  | .host .finish => .finished
  | .host (.crash ..) => .crashed
  | fault => .fault (fault.message Interrupt.message)

/-- Ticks a machine until it is done, fails or has used up `budget` ticks; `ticks` were made before. -/
def run (board : Board) (rule : SenseRule) (budget ticks : Nat) (machine : Machine) (walk : Walk) :
    Ending × Nat × Walk :=
  if machine.hasWork then
    match budget with
    | 0 => (.exhausted, ticks, walk)
    | budget + 1 =>
      let tick := machine.tick (host board rule) walk
      match tick.report with
      | .ok _ => run board rule budget (ticks + 1) tick.machine tick.host
      | .error fault => (endingOf fault, ticks + 1, tick.host)
  else (.completed, ticks, walk)

end Walk

/-- The summary of an execution. -/
structure Report where
  program : String
  digest : String
  ending : Ending
  verdict : Verdict
  ticks : Nat
  actions : Nat
  finalPose : Pose
  divergences : Nat
  deriving DecidableEq

namespace Attempt

/-- Settles the attempt by its ending and sums it up. An attempt that has a verdict keeps it. -/
def conclude (attempt : Attempt) (board : Board) (script program : String) (ending : Ending)
    (ticks divergences : Nat) : Report × Attempt :=
  let pose := attempt.logical
  let attempt :=
    match attempt.settle (ending.classify pose.position board.finish) with
    | .ok settled => settled
    | .error _ => attempt
  (⟨program, Digest.hex script, ending, attempt.verdict, ticks, attempt.journal.size, pose,
    divergences⟩, attempt)

/-- Compiles a script and walks it. A script that does not compile ends the attempt at once. -/
def execute (attempt : Attempt) (board : Board) (settings : Settings) (script : String) :
    Report × Attempt :=
  match Program.compile script with
  | .ok program =>
    let machine := Machine.load program settings.maxCallDepth.toNat
    let (ending, ticks, walk) :=
      Walk.run board settings.senseRule settings.tickBudget.toNat 0 machine (Walk.start attempt)
    walk.attempt.conclude board script program.name ending ticks walk.divergences
  | .error e => attempt.conclude board script "anonymous" (.fault e.message) 0 0

end Attempt

end BlockPuzzle
