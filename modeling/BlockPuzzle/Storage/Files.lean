import BlockPuzzle.Session
import BlockPuzzle.Storage.Codec
import BlockPuzzle.Storage.FileTree

/-!
# Files of a puzzle

Levels, settings and scripts are kept in files. A file is written beside its target first and then
moved over it, so whoever reads the target finds the old bytes or the new ones. `saveCalls` lists the
calls of the file system that do it, each with the error that its failure means.
-/

namespace BlockPuzzle

/-- What goes wrong with files. -/
inductive FileError where
  | unreadableSettings (path : FilePath)
  | malformedSettings
  | unreadableLevel (path : FilePath)
  | malformedLevel (path : FilePath)
  | invalidLevel (name : String) (error : BoardError)
  | unreadableScript (path : FilePath)
  | uncreated (path : FilePath)
  | unwritten
  | unmoved (source target : FilePath)
  | unopened (path : FilePath)
  | unusableSettings (error : SettingsError)
  deriving DecidableEq

/-- The words for what goes wrong with files. -/
def FileError.message : FileError → String
  | unreadableSettings path => "Failed to read config: " ++ path.quoted
  | malformedSettings => "Failed to deserialize config"
  | unreadableLevel path => "Failed to read level: " ++ path.quoted
  | malformedLevel path => "Malformed level: " ++ path.quoted
  | invalidLevel name _ => "Invalid level '" ++ name ++ "'"
  | unreadableScript path => "Failed to read script: " ++ path.quoted
  | uncreated path => "Failed to create temp file: " ++ path.quoted
  | unwritten => "Failed to write data"
  | unmoved source target => "Failed to rename " ++ source.quoted ++ " to " ++ target.quoted
  | unopened path => "Failed to open directory: " ++ path.quoted
  | unusableSettings error => (SessionError.settings error).message

/-! ## Reading -/

/-- Reads settings from a file; `read?` gives the bytes of a file. -/
def Settings.load (read? : FilePath → Option ByteArray) (path : FilePath) :
    Except FileError Settings :=
  match read? path with
  | none => .error (.unreadableSettings path)
  | some bytes =>
    match (JsonValue.read? bytes).bind Settings.ofJson? with
    | none => .error .malformedSettings
    | some settings => .ok settings

/-- Reads a level from a file. -/
def Level.load (read? : FilePath → Option ByteArray) (path : FilePath) : Except FileError Level :=
  match read? path with
  | none => .error (.unreadableLevel path)
  | some bytes =>
    match (JsonValue.read? bytes).bind Level.Sheet.ofJson? with
    | none => .error (.malformedLevel path)
    | some sheet => (Level.ofSheet sheet).mapError (.invalidLevel sheet.name)

/-- Reads the text of a script from a file. -/
def loadScript (read? : FilePath → Option ByteArray) (path : FilePath) : Except FileError String :=
  match (read? path).bind String.fromUTF8? with
  | none => .error (.unreadableScript path)
  | some script => .ok script

/-- Opens a session with a level and perhaps settings from files. The settings are read first. -/
def Session.load (read? : FilePath → Option ByteArray) (level : FilePath)
    (settings : Option FilePath) : Except FileError Session := do
  let settings ←
    match settings with
    | some path => Settings.load read? path
    | none => .ok .default
  let level ← Level.load read? level
  (Session.start settings level).mapError .unusableSettings

/-! ## Writing -/

/-- The calls that write a file, each with the error that its failure means. -/
def saveCalls (path : FilePath) (content : ByteArray) : List (FileCall × FileError) :=
  let draft := path.withExtension "tmp"
  [(.create draft, .uncreated draft), (.write draft content, .unwritten),
    (.rename draft path, .unmoved draft path)] ++
  match path.parent? with
  | some parent => [(.openDirectory parent, .unopened parent)]
  | none => []

/-- Carries out calls in order, up to the first one that fails. -/
def FileTree.performAll (tree : FileTree) :
    List (FileCall × FileError) → Except FileError Unit × FileTree
  | [] => (.ok (), tree)
  | (call, error) :: calls =>
    match tree.perform call with
    | some tree => tree.performAll calls
    | none => (.error error, tree)

/-- Writes a file by way of a draft beside it. -/
def FileTree.save (tree : FileTree) (path : FilePath) (content : ByteArray) :
    Except FileError Unit × FileTree :=
  tree.performAll (saveCalls path content)

/-- The bytes of a settings file. -/
def Settings.toFile (settings : Settings) : ByteArray :=
  settings.toJson.pretty.toUTF8

/-- The bytes of a level file. -/
def Level.toFile (level : Level) : ByteArray :=
  level.toSheet.toJson.pretty.toUTF8

end BlockPuzzle
