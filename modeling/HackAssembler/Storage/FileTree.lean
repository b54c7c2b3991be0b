import HackAssembler.Storage.Path

/-!
# File trees

The files a run can see. A tree has a root and a working directory, from which paths without
a slash in front lead on. Reading and writing follow the rules of opening a file by its path; a
write replaces the whole contents of one file and changes nothing else.

## Main definitions

* `FileTree.read` — the bytes of the file at a path.
* `FileTree.target` — where a write to a path puts its file.
* `FileTree.write` — the tree after a file was written as a whole.
-/

namespace HackAssembler

/-! ## Trees -/

/-- The way from the root of a tree: the names of the directories and then of the thing. -/
abbrev Location := List String

/-- One part of a path further. Above the root there is only the root. -/
def Location.move (here : Location) (part : String) : Location :=
  if part = "" ∨ part = "." then here
  else if part = ".." then here.dropLast
  else here ++ [part]

/-- What can stand at a location. -/
inductive Node where
  | directory
  | file (bytes : List UInt8)
deriving DecidableEq, Repr

/-- Directories and files by their location. The root is a directory and is not listed. -/
structure FileTree where
  nodes : List (Location × Node)
  /-- The working directory. -/
  home : Location
deriving DecidableEq, Repr

namespace FileTree

/-- What stands at a location. -/
def node? (tree : FileTree) (location : Location) : Option Node :=
  if location.isEmpty then some .directory else tree.nodes.lookup location

/-- The tree with something at a location, in place of what was there. -/
def put (tree : FileTree) (location : Location) (node : Node) : FileTree :=
  { tree with nodes := (location, node) :: tree.nodes.filter (·.1 ≠ location) }

/-- The contents of the file at a location. -/
def contents? (tree : FileTree) (location : Location) : Option (List UInt8) :=
  match tree.node? location with
  | some (.file bytes) => some bytes
  | _ => none

/-- All files with their contents. -/
def files (tree : FileTree) : List (Location × List UInt8) :=
  tree.nodes.filterMap fun
    | (location, .file bytes) => some (location, bytes)
    | (_, .directory) => none

/-- The files below the working directory, by their way from there. -/
def homeFiles (tree : FileTree) : List (Location × List UInt8) :=
  (tree.files.filter fun (location, _) => tree.home.isPrefixOf location).map
    fun (location, bytes) => (location.drop tree.home.length, bytes)

/-! ## Following a path -/

/-- Names have at most so many bytes. -/
def maxNameBytes : Nat := 255

/-- What stands one part of a path further on from a directory. -/
def step (tree : FileTree) (here : Location) (part : String) : Except StorageFault (Option Node) :=
  if maxNameBytes < part.utf8ByteSize then .error .nameTooLong
  else .ok (tree.node? (here.move part))

/-- Goes from directory to directory. -/
def enter (tree : FileTree) (here : Location) : List String → Except StorageFault Location
  | [] => .ok here
  | part :: parts =>
    match tree.step here part with
    | .error fault => .error fault
    | .ok none => .error .notFound
    | .ok (some (.file _)) => .error .notDirectory
    | .ok (some .directory) => tree.enter (here.move part) parts

/-- Where a path starts. -/
def start (tree : FileTree) (path : Path) : Location := if path.absolute then [] else tree.home

/-- The directory that a path looks for its last part in. -/
def parent (tree : FileTree) (path : Path) : Except StorageFault Location :=
  tree.enter (tree.start path) path.directories

/-! ## Reading and writing -/

/-- The bytes of the file at a path. -/
def read (tree : FileTree) (text : String) : Except StorageFault (List UInt8) := do
  let path ← Path.ofText text
  match ← tree.step (← tree.parent path) path.last with
  | none => .error .notFound
  | some .directory => .error .isDirectory
  | some (.file bytes) => if path.slashed then .error .notDirectory else .ok bytes

/-- The location at which a write to a path puts its file. A path that ends in a slash is taken
for a directory without a look at what is there. -/
def target (tree : FileTree) (text : String) : Except StorageFault Location := do
  let path ← Path.ofText text
  let here ← tree.parent path
  if path.slashed then .error .isDirectory
  else
    match ← tree.step here path.last with
    | some .directory => .error .isDirectory
    | _ => .ok (here.move path.last)

/-- Writes a file as a whole. -/
def write (tree : FileTree) (text : String) (bytes : List UInt8) : Except StorageFault FileTree :=
  (tree.target text).map fun location => tree.put location (.file bytes)

/-! ## Setting up a tree -/

/-- Goes from directory to directory and makes those that are missing. -/
def makeDirectories (tree : FileTree) (here : Location) : List String → FileTree
  | [] => tree
  | part :: parts =>
    let next := here.move part
    let made := if (tree.node? next).isSome then tree else tree.put next .directory
    made.makeDirectories next parts

/-- The tree with nothing in it but the working directory. -/
def ofHome (home : Location) : FileTree := makeDirectories ⟨[], home⟩ [] home

/-- The tree with a directory at the path. -/
def makeDirectory (tree : FileTree) (path : Path) : FileTree :=
  tree.makeDirectories (tree.start path) path.parts

/-- The tree with a file at the path, in directories that are made where they are missing. -/
def makeFile (tree : FileTree) (path : Path) (bytes : List UInt8) : FileTree :=
  (tree.makeDirectories (tree.start path) path.directories).put
    (path.parts.foldl Location.move (tree.start path)) (.file bytes)

end FileTree
end HackAssembler
