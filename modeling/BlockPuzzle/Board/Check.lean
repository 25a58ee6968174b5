import BlockPuzzle.Board.Basic

/-!
# Checked boards

`Board.ofRows` builds a board from a table of tiles and a table of expected bearings, or finds the
first rule that they break: the tables are rectangles of one shape, there is one START and one FINISH,
walls have no bearing, and the bearings lead from START to FINISH without coming to a point twice.
-/

namespace BlockPuzzle

/-- What keeps two tables, or their texts, from being a board. -/
inductive BoardError where
  | empty
  | ragged (row expected found : Nat)
  | unknownTile (symbol : Char) (point : Point)
  | unknownBearing (word : String) (point : Point)
  | tableShape (rows columns mapRows mapColumns : Nat)
  | missingStart
  | missingFinish
  | secondStart (point : Point)
  | secondFinish (point : Point)
  | bearingOnWall (point : Point)
  | brokenChain (point : Point)
  | cyclicChain (point : Point)
  deriving DecidableEq

/-- The words for such an error. -/
def BoardError.message : BoardError → String
  | empty => "map is empty"
  | ragged row expected found =>
    "row " ++ toString row ++ " has " ++ toString found ++ " cells, expected " ++ toString expected
  | unknownTile symbol point =>
    "unknown cell symbol '" ++ String.singleton symbol ++ "' at " ++ point.text
  | unknownBearing word point => "unknown direction '" ++ word ++ "' at " ++ point.text
  | tableShape rows columns mapRows mapColumns =>
    "expected-direction table is " ++ toString rows ++ "x" ++ toString columns ++ ", map is " ++
      toString mapRows ++ "x" ++ toString mapColumns
  | missingStart => "map has no start cell"
  | missingFinish => "map has no finish cell"
  | secondStart point => "second start cell at " ++ point.text
  | secondFinish point => "second finish cell at " ++ point.text
  | bearingOnWall point => "wall at " ++ point.text ++ " has an expected direction"
  | brokenChain point => "expected-direction chain breaks at " ++ point.text
  | cyclicChain point => "expected-direction chain revisits " ++ point.text

namespace Board

/-- One place of the map with what both tables say about it. -/
structure Plot where
  point : Point
  tile : Tile
  expected : Option Bearing

/-- The places of one row. -/
def rowPlots (y : Nat) (tiles : List Tile) (bearings : List (Option Bearing)) : List Plot :=
  (tiles.zip bearings).zipIdx.map fun ((tile, bearing), x) => ⟨⟨x, y⟩, tile, bearing⟩

/-- All places, row by row. -/
def plots (map : List (List Tile)) (table : List (List (Option Bearing))) : List Plot :=
  (map.zip table).zipIdx.flatMap fun ((tiles, bearings), y) => rowPlots y tiles bearings

/-- START and FINISH, as far as they have been found. -/
structure Landmarks where
  start : Option Point
  finish : Option Point

/-- Looks for START and FINISH, place by place, and for walls with a bearing. -/
def survey (found : Landmarks) : List Plot → Except BoardError Landmarks
  | [] => .ok found
  | plot :: plots =>
    match plot.tile with
    | .start =>
      if found.start.isSome then .error (.secondStart plot.point)
      else survey { found with start := some plot.point } plots
    | .finish =>
      if found.finish.isSome then .error (.secondFinish plot.point)
      else survey { found with finish := some plot.point } plots
    | .wall =>
      if plot.expected.isSome then .error (.bearingOnWall plot.point) else survey found plots
    | .floor => survey found plots

/-- Follows the chain of expected bearings to FINISH. `fresh` are the passable points that it has not
come to before. -/
def checkChain (board : Board) (fresh : List Point) (p : Point) : Except BoardError Unit :=
  if p = board.finish then .ok ()
  else if _h : p ∈ fresh then
    match board.expectedAt? p with
    | none => .error (.brokenChain p)
    | some bearing =>
      let next := p.step bearing
      if board.passableAt next then board.checkChain (fresh.erase p) next
      else .error (.brokenChain p)
  else .error (.cyclicChain p)
termination_by fresh.length
decreasing_by
  have := List.length_pos_of_mem _h
  rw [List.length_erase_of_mem _h]
  omega

/-- Builds a board from its two tables. -/
def ofRows (map : List (List Tile)) (table : List (List (Option Bearing))) :
    Except BoardError Board := do
  let height := map.length
  let width := (map.head?.map List.length).getD 0
  if height = 0 ∨ width = 0 then throw .empty
  match map.findIdx? (fun row => row.length != width) with
  | some row => throw (.ragged row width ((map[row]?.map List.length).getD 0))
  | none => pure ()
  let odd := table.find? (fun row => row.length != width)
  if table.length ≠ height ∨ odd.isSome then
    throw (.tableShape table.length ((odd.map List.length).getD width) height width)
  let found ← survey ⟨none, none⟩ (plots map table)
  match found.start, found.finish with
  | none, _ => throw .missingStart
  | some _, none => throw .missingFinish
  | some start, some finish =>
    let board : Board := ⟨width, height, map.flatten.toArray, table.flatten.toArray, start, finish⟩
    board.checkChain (board.points.filter board.passableAt) start
    return board

end Board

end BlockPuzzle
