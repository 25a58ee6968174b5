import BlockPuzzle.Compass

/-!
# Boards

A board is a rectangle of tiles, stored row by row, with at most one expected bearing per tile. A
step is open only toward the expected bearing, whatever the neighbours are. `Board.trail` follows the
expected bearings from START; `Board.strays` lists the passable tiles beside it.
-/

namespace BlockPuzzle

/-- What lies on one place of the map. -/
inductive Tile where
  | wall
  | floor
  | start
  | finish
  deriving DecidableEq

namespace Tile

/-- The tile that a map symbol stands for. -/
def ofSymbol? : Char → Option Tile
  | '#' => some wall
  | '.' => some floor
  | 'S' => some start
  | 'F' => some finish
  | _ => none

/-- The symbol of a tile on the map. -/
def symbol : Tile → Char
  | wall => '#'
  | floor => '.'
  | start => 'S'
  | finish => 'F'

/-- Whether the agent may stand here. -/
def passable (tile : Tile) : Bool :=
  tile != wall

end Tile

/-- The answer to whether a step can be made. -/
inductive Passage where
  | clear
  | wall
  | outside
  | unexpected (expected : Option Bearing)
  deriving DecidableEq

/-- A map with its expected bearings, its START and its FINISH. -/
structure Board where
  width : Nat
  height : Nat
  tiles : Array Tile
  expected : Array (Option Bearing)
  start : Point
  finish : Point
  deriving DecidableEq

namespace Board

/-- Place of a point in the stored rows, if the point is on the map. -/
def index? (board : Board) (p : Point) : Option Nat :=
  if 0 ≤ p.x ∧ 0 ≤ p.y ∧ p.x < board.width ∧ p.y < board.height then
    some (p.y.toNat * board.width + p.x.toNat)
  else none

/-- The tile at a point, if the point is on the map. -/
def tileAt? (board : Board) (p : Point) : Option Tile :=
  (board.index? p).bind (board.tiles[·]?)

/-- The expected bearing at a point, if there is one. -/
def expectedAt? (board : Board) (p : Point) : Option Bearing :=
  ((board.index? p).bind (board.expected[·]?)).join

/-- Whether a point is FINISH. -/
def isFinish (board : Board) (p : Point) : Bool :=
  p == board.finish

/-- Whether the agent may stand at a point. -/
def passableAt (board : Board) (p : Point) : Bool :=
  match board.tileAt? p with
  | some tile => tile.passable
  | none => false

/-- Whether a step toward a bearing can be made from a point. -/
def passage (board : Board) (p : Point) (toward : Bearing) : Passage :=
  match board.tileAt? (p.step toward) with
  | none => .outside
  | some .wall => .wall
  | some _ => if board.expectedAt? p = some toward then .clear else .unexpected (board.expectedAt? p)

/-- Whether a step to one side of an agent can be made. -/
def passageToward (board : Board) (p : Point) (facing : Bearing) (side : Side) : Passage :=
  board.passage p (facing.toward side)

/-- Follows the expected bearings for at most `steps` steps, until FINISH or a point without one. -/
def follow (board : Board) : Nat → Point → List Point
  | 0, p => [p]
  | steps + 1, p =>
    if p = board.finish then [p]
    else
      match board.expectedAt? p with
      | some bearing => p :: board.follow steps (p.step bearing)
      | none => [p]

/-- The points from START to FINISH along the expected bearings. -/
def trail (board : Board) : List Point :=
  board.follow board.tiles.size board.start

/-- All points of the map, row by row. -/
def points (board : Board) : List Point :=
  (List.range board.height).flatMap fun (y : Nat) =>
    (List.range board.width).map fun (x : Nat) => ⟨x, y⟩

/-- The passable points that are not on the trail, row by row. -/
def strays (board : Board) : List Point :=
  let trail := board.trail
  board.points.filter fun p => board.passableAt p && !trail.contains p

end Board

end BlockPuzzle
