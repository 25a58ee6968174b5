import BlockPuzzle.CommandLine.Arguments
import BlockPuzzle.Storage.Files

/-!
# The command line

`Invocation.plan` says what an invocation shows and writes, given a way to read files. What is shown
comes in pieces, with pauses between them where a replay runs in real time. `Plan.carryOut` does all of
it on a file tree.
-/

namespace BlockPuzzle

/-- Something shown, or a pause before what comes next. -/
inductive Piece where
  | text (text : String)
  | pause (delay : Millis)

/-- What an invocation comes to: what it shows, then the calls of the file system, then what it shows if
they succeed, or why it fails. -/
structure Plan where
  shown : List Piece
  calls : List (FileCall × FileError)
  closing : List Piece
  failure : Option String

namespace Plan

/-- A plan that only shows something. -/
def showing (shown : List Piece) : Plan :=
  ⟨shown, [], [], none⟩

/-- A plan that shows something and then fails. -/
def failing (shown : List Piece) (message : String) : Plan :=
  ⟨shown, [], [], some message⟩

end Plan

/-- A line of text. -/
def Piece.line (text : String) : Piece :=
  .text (text ++ "\n")

/-- A pose as it is shown. -/
def Pose.text (pose : Pose) : String :=
  "at " ++ pose.position.text ++ " facing " ++ pose.facing.abbreviation

/-- An event as it is shown; a block stands on one line with what it did. -/
def Event.piece : Event → Piece
  | highlight block => .text ("[" ++ block ++ "] ")
  | render pose .step => .line pose.text
  | render pose .crash => .line ("crashed " ++ pose.text)
  | render _ (.victory index) => .line ("victory frame " ++ toString (index + 1))
  | done verdict => .line ("Result: " ++ verdict.name)

namespace JsonValue

/-- A point as a record. -/
def ofPoint (point : Point) : JsonValue :=
  .ofFields [("x", .integer point.x), ("y", .integer point.y)]

/-- A pose as a record. -/
def ofPose (pose : Pose) : JsonValue :=
  .ofFields [("position", ofPoint pose.position), ("facing", .string pose.facing.name)]

/-- An ending as a record; only a fault has a detail. -/
def ofEnding (ending : Ending) : JsonValue :=
  .ofFields <|
    ("channel", .string ending.name) ::
    match ending with
    | .fault detail => [("detail", .string detail)]
    | _ => []

/-- A report as a record. -/
def ofReport (report : Report) : JsonValue :=
  .ofFields
    [("program", .string report.program), ("script_digest", .string report.digest),
      ("termination", ofEnding report.ending), ("result", .string report.verdict.name),
      ("ticks", .integer report.ticks), ("actions", .integer report.actions),
      ("final_pose", ofPose report.finalPose),
      ("sense_divergences", .integer report.divergences)]

end JsonValue

/-- A report in one line. -/
def Report.summary (report : Report) (level : Level) : String :=
  "Program '" ++ report.program ++ "' on '" ++ level.name ++ "': " ++ report.verdict.name ++ " (" ++
    toString report.actions ++ " actions, " ++ toString report.ticks ++ " ticks)"

/-- The rest of a replay with the pauses between its events. -/
def Session.paced (session : Session) : List Piece :=
  match _h : session.nextDeadlineIn? with
  | none => []
  | some delay =>
    let next := session.advance delay []
    .pause delay :: (next.delivered.reverse.map Event.piece ++ next.session.paced)
termination_by session.work
decreasing_by exact Session.work_advance_lt [] _h

/-- The rest of a replay without pauses. -/
def Session.unpaced (session : Session) : List Piece :=
  (session.replayToEnd 0 []).delivered.reverse.map Event.piece

namespace Invocation

/-- Opens a session and reads a script, both from files. The settings are checked before the script is
read. -/
def openRun (read? : FilePath → Option ByteArray) (level script : FilePath)
    (settings : Option FilePath) : Except FileError (Session × String) := do
  let session ← Session.load read? level settings
  let source ← loadScript read? script
  return (session, source)

/-- Runs a script and shows the report and the replay. -/
def planRun (session : Session) (script : String) (realtime json : Bool) : Plan :=
  match session.run script with
  | (.error e, _) => .failing [] (SessionError.replay e).message
  | (.ok report, session) =>
    let first :=
      if json then (JsonValue.ofReport report).pretty else report.summary session.level
    .showing (.line first :: if realtime then session.paced else session.unpaced)

/-- What is said about a level. -/
def describe (level : Level) : List Piece :=
  let board := level.board
  let strays := board.strays.length
  [.line ("Level '" ++ level.name ++ "' (" ++ toString board.width ++ "x" ++ toString board.height ++
      ")"),
    .line ("Solution path: " ++ " -> ".intercalate (board.trail.map Point.text))] ++
  if strays = 0 then [] else [.line ("Open cells off the path: " ++ toString strays)]

/-- What is said about the blocks that are left. -/
def describeCapacity : Option Int → Piece
  | some left =>
    if left < 0 then .line ("Script uses " ++ toString (-left) ++ " blocks too many")
    else .line ("Blocks remaining: " ++ toString left)
  | none => .line "Level has no block limit"

/-- Counts the blocks of a script against the limit of a level. -/
def planCapacity (shown : List Piece) (level : Level) (script : String) : Plan :=
  match Session.start .default level with
  | .error e => .failing shown (SessionError.settings e).message
  | .ok session =>
    match session.remainingCapacity script with
    | .error e => .failing shown e.message
    | .ok left => .showing (shown ++ [describeCapacity left])

/-- Shows a level and perhaps how many blocks a script leaves. -/
def planCheck (read? : FilePath → Option ByteArray) (level : FilePath) (script : Option FilePath) :
    Plan :=
  match Level.load read? level with
  | .error e => .failing [] e.message
  | .ok level =>
    match script with
    | none => .showing (describe level)
    | some path =>
      match loadScript read? path with
      | .error e => .failing (describe level) e.message
      | .ok source => planCapacity (describe level) level source

/-- How to call the program. -/
def usage : String :=
  "Usage: run -l LEVEL -s SCRIPT [-c CONFIG] [--realtime] [--json] | check -l LEVEL [-s SCRIPT] | " ++
    "init-config [-p PATH]"

/-- What an invocation comes to. -/
def plan (read? : FilePath → Option ByteArray) : Invocation → Plan
  | run level script settings realtime json =>
    match openRun read? level script settings with
    | .error e => .failing [] e.message
    | .ok (session, source) => planRun session source realtime json
  | check level script => planCheck read? level script
  | initSettings path =>
    ⟨[], saveCalls path Settings.default.toFile,
      [.line ("Wrote default configuration to " ++ path.quoted)], none⟩
  | help => .showing [.line usage]

/-- The files that an invocation may read. -/
def inputs : Invocation → List FilePath
  | run level script settings _ _ => settings.toList ++ [level, script]
  | check level script => level :: script.toList
  | initSettings _ => []
  | help => []

end Invocation

/-- What came of an invocation: the exit code, what was shown, the line for the error, and the file
tree. -/
structure Execution where
  exit : Nat
  shown : String
  error : String
  tree : FileTree

/-- The text of some pieces. -/
def Piece.texts (pieces : List Piece) : String :=
  String.join (pieces.map fun
    | .text shown => shown
    | .pause _ => "")

/-- The line for an error. -/
def errorLine (message : String) : String :=
  "Error: " ++ message ++ "\n"

/-- Carries out a plan on a file tree. -/
def Plan.carryOut (plan : Plan) (tree : FileTree) : Execution :=
  match plan.failure with
  | some message => ⟨1, Piece.texts plan.shown, errorLine message, tree⟩
  | none =>
    match tree.performAll plan.calls with
    | (.ok _, tree) => ⟨0, Piece.texts (plan.shown ++ plan.closing), "", tree⟩
    | (.error e, tree) => ⟨1, Piece.texts plan.shown, errorLine e.message, tree⟩

/-- Runs the command line on a file tree. Wrong arguments have the exit code 2. -/
def execute (arguments : List String) (tree : FileTree) : Execution :=
  match Invocation.parse arguments with
  | none => ⟨2, "", Invocation.usage ++ "\n", tree⟩
  | some invocation => (invocation.plan tree.read?).carryOut tree

end BlockPuzzle
