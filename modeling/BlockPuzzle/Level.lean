import BlockPuzzle.Board.Text

/-!
# Levels

A level is a board with a name, the facing of the agent at START and perhaps a limit on the number of
distinct blocks. `Level.Sheet` is its written form.
-/

namespace BlockPuzzle

/-- A puzzle to be solved. -/
structure Level where
  name : String
  board : Board
  startFacing : Bearing
  maxBlocks : Option UInt64
  deriving DecidableEq

/-- A level as it is written down. -/
structure Level.Sheet where
  name : String
  map : List String
  expected : List String
  startFacing : Bearing
  maxBlocks : Option UInt64
  deriving DecidableEq

namespace Level

/-- A level without a limit on blocks. -/
def ofBoard (name : String) (board : Board) (startFacing : Bearing) : Level :=
  ⟨name, board, startFacing, none⟩

/-- Limits the number of distinct blocks. -/
def withMaxBlocks (level : Level) (maxBlocks : UInt64) : Level :=
  { level with maxBlocks := some maxBlocks }

/-- The level that a sheet describes. -/
def ofSheet (sheet : Sheet) : Except BoardError Level :=
  (Board.ofText sheet.map sheet.expected).map fun board =>
    ⟨sheet.name, board, sheet.startFacing, sheet.maxBlocks⟩

/-- The sheet of a level. -/
def toSheet (level : Level) : Sheet :=
  ⟨level.name, level.board.mapText, level.board.tableText, level.startFacing, level.maxBlocks⟩

/-- Where every attempt begins. -/
def startPose (level : Level) : Pose :=
  ⟨level.board.start, level.startFacing⟩

/-- How many blocks are left when `used` distinct ones are in use, if there is a limit. Both are taken
for signed words of 64 bits, and so is their difference, which wraps around if it does not fit. -/
def blocksLeft (level : Level) (used : Nat) : Option Int :=
  level.maxBlocks.map fun most => (most.toInt64 - Int64.ofNat used).toInt

end Level

end BlockPuzzle
