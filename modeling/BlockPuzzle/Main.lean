import BlockPuzzle.CommandLine.Console

/-!
# The program

Reads the files that an invocation names, shows what its plan says and carries out its calls on the real
file system.
-/

open BlockPuzzle

/-- Reads a file, if that is possible. -/
def readFile? (path : FilePath) : IO (FilePath × Option ByteArray) := do
  try
    let bytes ← IO.FS.readBinFile path.text
    return (path, some bytes)
  catch _ => return (path, none)

/-- Carries out a call of the file system. -/
def performCall : FileCall → IO Unit
  | .create path => IO.FS.writeBinFile path.text ByteArray.empty
  | .write path content => IO.FS.writeBinFile path.text content
  | .rename source target => IO.FS.rename source.text target.text
  | .openDirectory _ => pure ()

/-- Sleeps for some milliseconds, a day at a time. -/
def sleepFor (duration : Nat) : IO Unit := do
  for _ in [0 : duration / 86400000] do
    IO.sleep 86400000
  IO.sleep (duration % 86400000).toUInt32

/-- Shows pieces, with their pauses. -/
def showPieces (pieces : List Piece) : IO Unit := do
  let output ← IO.getStdout
  for piece in pieces do
    match piece with
    | .text text =>
      output.putStr text
      output.flush
    | .pause delay => sleepFor delay.toNat

/-- Writes the line for an error. -/
def complain (message : String) : IO UInt32 := do
  let output ← IO.getStderr
  output.putStr (errorLine message)
  return 1

/-- Carries out calls up to the first one that fails. -/
def performCalls : List (FileCall × FileError) → IO (Option FileError)
  | [] => return none
  | (call, error) :: calls => do
    let done ← (do performCall call; pure true) <|> pure false
    if done then performCalls calls else return some error

/-- Runs the command line. -/
def main (arguments : List String) : IO UInt32 := do
  match Invocation.parse arguments with
  | none =>
    let output ← IO.getStderr
    output.putStrLn Invocation.usage
    return 2
  | some invocation =>
    let files ← invocation.inputs.mapM readFile?
    let plan := invocation.plan fun path => (files.lookup path).join
    showPieces plan.shown
    match plan.failure with
    | some message => complain message
    | none =>
      match ← performCalls plan.calls with
      | some error => complain error.message
      | none =>
        showPieces plan.closing
        return 0
