import BlockPuzzle.Text.Quoted

/-!
# File paths

A path is a text; its parts stand between slashes. Empty parts and parts `.` do not count where a file
name is looked for.
-/

namespace BlockPuzzle

/-- The name of a file or directory, with the directories above it. -/
structure FilePath where
  text : String
  deriving DecidableEq

namespace FilePath

/-- A path as messages show it. -/
def quoted (path : FilePath) : String :=
  Text.quoted path.text

/-- The texts between the slashes. -/
def parts (path : FilePath) : List String :=
  (path.text.toList.splitOn '/').map String.ofList

/-- Whether a part does not count at the end of a path. -/
def isIdle (part : String) : Bool :=
  part == "" || part == "."

/-- The parts from the last one that counts backward to the first one. -/
def partsFromName (path : FilePath) : List String :=
  path.parts.reverse.dropWhile isIdle

/-- A file name without its extension: what stands before the last dot, unless that is the first
character. -/
def stem (name : String) : String :=
  match name.toList.reverse.dropWhile (· != '.') with
  | _ :: c :: before => String.ofList (c :: before).reverse
  | _ => name

/-- Whether a path ends right behind a file name that is `..` but for its extension. -/
def hidesParent (path : FilePath) (name : String) : Bool :=
  stem name == "." && path.parts.getLast? == some name

/-- The path with another extension behind the stem of its file name. The old extension is taken off
first; if no file name is left then, nothing is put behind it. -/
def withExtension (path : FilePath) (extension : String) : FilePath :=
  match path.partsFromName with
  | [] => path
  | name :: before =>
    if name = ".." then path
    else if path.hidesParent name then ⟨"/".intercalate (".." :: before).reverse⟩
    else ⟨"/".intercalate ((stem name ++ "." ++ extension) :: before).reverse⟩

/-- The path of the directory that holds a file, if the path names one. -/
def parent? (path : FilePath) : Option FilePath :=
  match path.partsFromName with
  | [] => none
  | _ :: before =>
    match before.dropWhile isIdle with
    | [] => none
    | before => some ⟨"/".intercalate before.reverse⟩

/-- The paths that end with one of these parts, which are listed backward; the longest comes first. -/
def pathsEndingIn : List String → List FilePath
  | [] => []
  | part :: before =>
    if isIdle part then pathsEndingIn before
    else ⟨"/".intercalate (part :: before).reverse⟩ :: pathsEndingIn before

/-- The paths of the directories above a path, the highest one first. -/
def above (path : FilePath) : List FilePath :=
  (pathsEndingIn path.partsFromName.tail).reverse

/-- Whether a file system takes a path at all: it has at most 4095 bytes, none of them zero. -/
def isUsable (path : FilePath) : Bool :=
  path.text.utf8ByteSize ≤ 4095 && !path.text.toList.contains (Char.ofNat 0)

/-- Whether only a directory can have this path. -/
def namesDirectory (path : FilePath) : Bool :=
  match path.parts.getLast? with
  | some last => isIdle last || last == ".."
  | none => true

/-- Whether a path starts at the root of all files. -/
def isAbsolute (path : FilePath) : Bool :=
  path.text.startsWith "/"

end FilePath

end BlockPuzzle
