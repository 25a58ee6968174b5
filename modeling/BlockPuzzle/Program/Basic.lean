import BlockPuzzle.Compass

/-!
# Programs

A program is a list of statements and a list of procedures that statements call by index. Every
command and every look at the surroundings names the block that asks for it. `Program.blockIds` lists
the distinct blocks of a program in the order of their code points.
-/

namespace BlockPuzzle

/-- The name of a block in the editor. -/
abbrev BlockId := String

/-- What a statement can ask the agent to do. -/
inductive Command where
  | moveForward
  | moveBackward
  | turnLeft
  | turnRight
  | face (target : Bearing)
  | finish
  deriving DecidableEq

/-- What loops and branches test. -/
inductive Condition where
  | literal (value : Bool)
  | path (side : Side) (block : BlockId)
  | notDone
  | negation (inner : Condition)
  | all (items : List Condition)
  | any (items : List Condition)

mutual

/-- One statement of a program. -/
inductive Statement where
  | command (command : Command) (block : BlockId)
  | loop (times : UInt32) (body : List Statement)
  | whileHolds (condition : Condition) (body : List Statement)
  | forever (body : List Statement)
  | branch (arms : List Arm) (otherwise : Option (List Statement))
  | call (procedure : Nat)

/-- One guarded body of a branch. -/
inductive Arm where
  | mk (condition : Condition) (body : List Statement)

end

namespace Arm

/-- What has to hold for the body to run. -/
def condition : Arm → Condition
  | mk condition _ => condition

/-- The statements behind the condition. -/
def body : Arm → List Statement
  | mk _ body => body

end Arm

/-- A named list of statements without parameters. -/
structure Procedure where
  name : String
  body : List Statement

/-- A whole program. -/
structure Program where
  name : String
  main : List Statement
  procedures : List Procedure

/-! ## Blocks of a program -/

mutual

/-- Blocks that a condition asks through, in order of appearance. -/
def Condition.blocks : Condition → List BlockId
  | .literal _ => []
  | .path _ block => [block]
  | .notDone => []
  | .negation inner => inner.blocks
  | .all items => conditionsBlocks items
  | .any items => conditionsBlocks items

/-- Blocks of a list of conditions. -/
def conditionsBlocks : List Condition → List BlockId
  | [] => []
  | c :: cs => c.blocks ++ conditionsBlocks cs

end

mutual

/-- Blocks of a statement, of its conditions and of its bodies. -/
def Statement.blocks : Statement → List BlockId
  | .command _ block => [block]
  | .loop _ body => bodyBlocks body
  | .whileHolds condition body => condition.blocks ++ bodyBlocks body
  | .forever body => bodyBlocks body
  | .branch arms otherwise => armsBlocks arms ++ otherwiseBlocks otherwise
  | .call _ => []

/-- Blocks of a list of statements. -/
def bodyBlocks : List Statement → List BlockId
  | [] => []
  | s :: ss => s.blocks ++ bodyBlocks ss

/-- Blocks of one arm of a branch. -/
def Arm.blocks : Arm → List BlockId
  | .mk condition body => condition.blocks ++ bodyBlocks body

/-- Blocks of the arms of a branch. -/
def armsBlocks : List Arm → List BlockId
  | [] => []
  | a :: as => a.blocks ++ armsBlocks as

/-- Blocks of the last resort of a branch. -/
def otherwiseBlocks : Option (List Statement) → List BlockId
  | none => []
  | some body => bodyBlocks body

end

namespace Program

/-- Every block that the program names, once for each place that names it. -/
def blocks (program : Program) : List BlockId :=
  bodyBlocks program.main ++ program.procedures.flatMap (fun p => bodyBlocks p.body)

/-- The distinct blocks of a program, sorted by code points. -/
def blockIds (program : Program) : List BlockId :=
  program.blocks.eraseDups.mergeSort (fun a b => decide (a ≤ b))

end Program

end BlockPuzzle
