/-!
# Compass

Bearings, sides, points and poses. A bearing is one of eight compass directions; turns are counted in
eighths of a full turn, clockwise. Points have their `y` axis to the south and coordinates that fit
32-bit words: a step beyond the last coordinate stays there.
-/

namespace BlockPuzzle

/-- The eight compass directions, clockwise. -/
inductive Bearing where
  | north
  | northEast
  | east
  | southEast
  | south
  | southWest
  | west
  | northWest
  deriving DecidableEq, Inhabited

/-- The four sides of the agent, clockwise from the one it faces. -/
inductive Side where
  | ahead
  | right
  | behind
  | left
  deriving DecidableEq

/-- A place on the map: `x` counts columns eastward, `y` rows southward. -/
structure Point where
  x : Int
  y : Int
  deriving DecidableEq

/-- Where the agent stands and which way it faces. -/
structure Pose where
  position : Point
  facing : Bearing
  deriving DecidableEq

namespace Bearing

/-- All bearings, clockwise from north. -/
def all : List Bearing :=
  [north, northEast, east, southEast, south, southWest, west, northWest]

/-- Eighths of a turn from north, clockwise. -/
def eighths : Bearing → Int
  | north => 0
  | northEast => 1
  | east => 2
  | southEast => 3
  | south => 4
  | southWest => 5
  | west => 6
  | northWest => 7

/-- The bearing after any number of eighths from north. -/
def ofEighths (n : Int) : Bearing :=
  match (n % 8).toNat with
  | 0 => north
  | 1 => northEast
  | 2 => east
  | 3 => southEast
  | 4 => south
  | 5 => southWest
  | 6 => west
  | _ => northWest

/-- The bearing after a turn; a negative turn goes anticlockwise. -/
def rotate (bearing : Bearing) (eighths : Int) : Bearing :=
  ofEighths (bearing.eighths + eighths)

/-- The shortest turn to another bearing, from -3 to 4: half a turn is clockwise. -/
def turnTo (bearing target : Bearing) : Int :=
  let turn := (target.eighths - bearing.eighths) % 8
  if turn > 4 then turn - 8 else turn

/-- Change of the column in one step. -/
def dx : Bearing → Int
  | north => 0
  | northEast => 1
  | east => 1
  | southEast => 1
  | south => 0
  | southWest => -1
  | west => -1
  | northWest => -1

/-- Change of the row in one step. -/
def dy : Bearing → Int
  | north => -1
  | northEast => -1
  | east => 0
  | southEast => 1
  | south => 1
  | southWest => 1
  | west => 0
  | northWest => -1

/-- The letters of a bearing on a compass rose. -/
def abbreviation : Bearing → String
  | north => "N"
  | northEast => "NE"
  | east => "E"
  | southEast => "SE"
  | south => "S"
  | southWest => "SW"
  | west => "W"
  | northWest => "NW"

/-- The full name of a bearing, in lower case with a hyphen. -/
def name : Bearing → String
  | north => "north"
  | northEast => "north-east"
  | east => "east"
  | southEast => "south-east"
  | south => "south"
  | southWest => "south-west"
  | west => "west"
  | northWest => "north-west"

/-- The bearing with a full name. -/
def ofName? (s : String) : Option Bearing :=
  all.find? (fun b => b.name == s)

/-- The bearing that a text in lower case spells: letters, full name, or full name without hyphen. -/
def ofLowercase? : String → Option Bearing
  | "n" => some north
  | "north" => some north
  | "ne" => some northEast
  | "north-east" => some northEast
  | "northeast" => some northEast
  | "e" => some east
  | "east" => some east
  | "se" => some southEast
  | "south-east" => some southEast
  | "southeast" => some southEast
  | "s" => some south
  | "south" => some south
  | "sw" => some southWest
  | "south-west" => some southWest
  | "southwest" => some southWest
  | "w" => some west
  | "west" => some west
  | "nw" => some northWest
  | "north-west" => some northWest
  | "northwest" => some northWest
  | _ => none

/-- The bearing that a text spells in any mix of upper and lower case. -/
def ofText? (s : String) : Option Bearing :=
  ofLowercase? s.toLower

/-- The words for a text that spells no bearing. -/
def unknownMessage (s : String) : String :=
  "unknown direction: " ++ s.toLower

end Bearing

namespace Side

/-- Quarter turns from the side ahead, clockwise. -/
def quarters : Side → Int
  | ahead => 0
  | right => 1
  | behind => 2
  | left => 3

end Side

/-- The absolute bearing of a side of an agent that faces `bearing`. -/
def Bearing.toward (bearing : Bearing) (side : Side) : Bearing :=
  bearing.rotate (2 * side.quarters)

namespace Point

/-- The nearest coordinate that fits a signed word of 32 bits. -/
def clamp (n : Int) : Int :=
  max (-2147483648) (min n 2147483647)

/-- The neighbour toward a bearing. -/
def step (p : Point) (bearing : Bearing) : Point :=
  ⟨clamp (p.x + bearing.dx), clamp (p.y + bearing.dy)⟩

/-- A point as it is written in messages. -/
def text (p : Point) : String :=
  "(" ++ toString p.x ++ ", " ++ toString p.y ++ ")"

end Point

end BlockPuzzle
