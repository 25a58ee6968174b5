import BlockPuzzle.Board.Check
import BlockPuzzle.Text.Blank

/-!
# Boards as text

A map is written with one symbol per tile and one text per row; the table of expected bearings with
one word per tile, `-` where none is expected. `Board.ofText` reads both, `Board.mapText` and
`Board.tableText` write them.
-/

namespace BlockPuzzle.Board

/-- Reads the tiles of row `y` from column `x` on. -/
def readTiles (y : Nat) (x : Nat) : List Char → Except BoardError (List Tile)
  | [] => .ok []
  | symbol :: symbols =>
    match Tile.ofSymbol? symbol with
    | none => .error (.unknownTile symbol ⟨x, y⟩)
    | some tile => do
      let tiles ← readTiles y (x + 1) symbols
      return tile :: tiles

/-- Reads a map from row `y` on. -/
def readMap (y : Nat) : List String → Except BoardError (List (List Tile))
  | [] => .ok []
  | row :: rows => do
    let tiles ← readTiles y 0 row.toList
    let others ← readMap (y + 1) rows
    return tiles :: others

/-- Reads the bearings of row `y` from column `x` on. -/
def readBearings (y : Nat) (x : Nat) : List (List Char) → Except BoardError (List (Option Bearing))
  | [] => .ok []
  | word :: words =>
    if word = ['-'] then do
      let others ← readBearings y (x + 1) words
      return none :: others
    else
      match Bearing.ofText? (String.ofList word) with
      | none => .error (.unknownBearing (String.ofList word) ⟨x, y⟩)
      | some bearing => do
        let others ← readBearings y (x + 1) words
        return some bearing :: others

/-- Reads a table of bearings from row `y` on. -/
def readTable (y : Nat) : List String → Except BoardError (List (List (Option Bearing)))
  | [] => .ok []
  | row :: rows => do
    let bearings ← readBearings y 0 (Text.words row.toList)
    let others ← readTable (y + 1) rows
    return bearings :: others

/-- Reads a board from the rows of its map and of its table. -/
def ofText (map table : List String) : Except BoardError Board := do
  let tiles ← readMap 0 map
  let bearings ← readTable 0 table
  ofRows tiles bearings

/-- The rows of something stored tile by tile. -/
def rows {α : Type} (board : Board) (stored : Array α) : List (List α) :=
  (List.range board.height).map fun y =>
    (List.range board.width).filterMap fun x => stored[y * board.width + x]?

/-- The rows of the map. -/
def mapText (board : Board) : List String :=
  (board.rows board.tiles).map fun row => String.ofList (row.map Tile.symbol)

/-- The word for an expected bearing. -/
def bearingWord : Option Bearing → String
  | some bearing => bearing.abbreviation
  | none => "-"

/-- The rows of the table of expected bearings. -/
def tableText (board : Board) : List String :=
  (board.rows board.expected).map fun row => " ".intercalate (row.map bearingWord)

end BlockPuzzle.Board
