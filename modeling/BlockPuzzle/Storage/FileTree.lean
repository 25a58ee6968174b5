import BlockPuzzle.Storage.FilePath

/-!
# File trees

A file tree is what a directory holds: files with their bytes, and directories. Paths are looked up part
by part, as a file system does it. A path may lead out of the tree, by `..` or from the root of all files;
little is known to be there but what is put there later. `FileTree.perform` is what the calls of a file
system do to the tree; a call that cannot be carried out changes nothing.
-/

namespace BlockPuzzle

/-- A file or a directory. -/
inductive Node where
  | file (content : ByteArray)
  | directory

/-- The names on the way from the top of a tree to a node. Every `..` stands at the front and leads one
directory further up; a slash at the front leads to the root of all files. -/
abbrev Place := List String

namespace Place

/-- The root of all files. -/
def root : Place :=
  ["/"]

/-- Whether a place is the root, the top of the tree or a directory that `..` leads to. -/
def isAncestral (place : Place) : Bool :=
  place == root || place.all (· == "..")

/-- Whether a place is outside the tree. -/
def isOutside (place : Place) : Bool :=
  place.head? == some ".." || place.head? == some "/"

/-- The place of the directory that holds a place; the root has none but itself. -/
def up (place : Place) : Place :=
  if place == root then root
  else if place.isAncestral then place ++ [".."]
  else place.dropLast

end Place

/-- What a directory holds. The directory itself is at the empty place; directories above it are there
without being listed. -/
structure FileTree where
  nodes : List (Place × Node)

namespace FileTree

/-- A directory that holds nothing. Outside of it are the directories and the empty file that every file
system has. -/
def empty : FileTree :=
  ⟨[(["/", "tmp"], .directory), (["/", "dev"], .directory),
    (["/", "dev", "null"], .file ByteArray.empty)]⟩

/-- The node at a place. -/
def node? (tree : FileTree) (place : Place) : Option Node :=
  if place.isAncestral then some .directory else tree.nodes.lookup place

/-- Whether there is a directory at a place. -/
def isDirectory (tree : FileTree) (place : Place) : Bool :=
  match tree.node? place with
  | some .directory => true
  | _ => false

/-- Takes the node away from a place. -/
def erase (tree : FileTree) (place : Place) : FileTree :=
  ⟨tree.nodes.filter fun (other, _) => other != place⟩

/-- Puts a node at a place. -/
def put (tree : FileTree) (place : Place) (node : Node) : FileTree :=
  ⟨(place, node) :: (tree.erase place).nodes⟩

/-- The place that a part of a path leads to. -/
def enter (place : Place) (part : String) : Place :=
  if part = "." ∨ part = "" then place
  else if part = ".." then place.up
  else place ++ [part]

/-- Follows parts of a path through directories. -/
def descend (tree : FileTree) (place : Place) : List String → Option Place
  | [] => some place
  | part :: parts =>
    let next := enter place part
    if tree.isDirectory next then tree.descend next parts else none

/-- The place of a path. Everything above it must be a directory; the place itself may be empty. -/
def locate? (tree : FileTree) (path : FilePath) : Option Place :=
  if path.text.isEmpty || !path.isUsable then none
  else
    let start := if path.isAbsolute then Place.root else []
    match (path.parts.filter (· != "")).reverse with
    | [] => some start
    | last :: before => (tree.descend start before.reverse).map fun place => enter place last

/-- The bytes of the file with a path. -/
def read? (tree : FileTree) (path : FilePath) : Option ByteArray :=
  if path.namesDirectory then none
  else
    match (tree.locate? path).bind tree.node? with
    | some (.file content) => some content
    | _ => none

/-- Whether a name can be given to a file or directory. -/
def isFileName (name : String) : Bool :=
  name.utf8ByteSize ≤ 255

/-- The place of a path at which a file may be put: it holds a file or nothing. -/
def filePlace? (tree : FileTree) (path : FilePath) : Option Place := do
  let place ← tree.locate? path
  let name ← place.getLast?
  if path.namesDirectory || tree.isDirectory place || !isFileName name then none else some place

end FileTree

/-- A call of a file system. -/
inductive FileCall where
  | create (path : FilePath)
  | write (path : FilePath) (content : ByteArray)
  | rename (source target : FilePath)
  | openDirectory (path : FilePath)

namespace FileTree

/-- Carries out a call, if that is possible. `create` makes an empty file or empties the one that is
there, `write` fills it, and `rename` moves a file to another path, in the place of what was there. -/
def perform (tree : FileTree) : FileCall → Option FileTree
  | .create path => (tree.filePlace? path).map fun place => tree.put place (.file ByteArray.empty)
  | .write path content => do
    let place ← tree.filePlace? path
    match tree.node? place with
    | some (.file _) => return tree.put place (.file content)
    | _ => none
  | .rename source target => do
    let origin ← tree.filePlace? source
    let place ← tree.filePlace? target
    match tree.node? origin with
    | some (.file content) => return (tree.erase origin).put place (.file content)
    | _ => none
  | .openDirectory path => do
    let place ← tree.locate? path
    if tree.isDirectory place then some tree else none

/-- Makes a directory in one that is there, if that is possible; a directory that is there already
stays. -/
def addDirectory (tree : FileTree) (path : FilePath) : Option FileTree := do
  let place ← tree.locate? path
  match tree.node? place with
  | some .directory => return tree
  | some (.file _) => none
  | none =>
    let name ← place.getLast?
    if isFileName name then some (tree.put place .directory) else none

/-- Makes directories in order, up to the first one that cannot be made. -/
def addDirectories (tree : FileTree) : List FilePath → FileTree
  | [] => tree
  | path :: paths =>
    match tree.addDirectory path with
    | some tree => tree.addDirectories paths
    | none => tree

/-- Makes the directory with a path and those above it, as far as that is possible. -/
def makeDirectory (tree : FileTree) (path : FilePath) : FileTree :=
  if path.isUsable then tree.addDirectories (path.above ++ [path]) else tree

/-- Writes a file in one go, if that is possible. -/
def writeFile (tree : FileTree) (path : FilePath) (content : ByteArray) : FileTree :=
  match tree.filePlace? path with
  | some place => tree.put place (.file content)
  | none => tree

/-- The text of a place; directories end in a slash. -/
def placeText (place : Place) : Node → String
  | .file _ => "/".intercalate place
  | .directory => "/".intercalate place ++ "/"

/-- The texts of all places in the tree, sorted by code points. -/
def listing (tree : FileTree) : List String :=
  let inside := tree.nodes.filter fun (place, _) => !place.isOutside
  (inside.map fun (place, node) => placeText place node).mergeSort fun a b => decide (a ≤ b)

end FileTree

end BlockPuzzle
