import Linkage.FileSystem

/-!
# Files — a tree of files and directories as a value

A tree lists its files with their contents, and its directories; both are named by the components
that lead to them from the current directory, where the tree has its root.  A name that begins
with two dots, or with the slash of an absolute path, lies outside the
tree.  `FileTree.fileSystem` is the file system whose effects change such a tree.

A path is walked component by component.  Empty components and single dots stay where they are, two
dots go up, and a name must exist; all of them need a directory to start from.  A path and each of
its components have room for a limited number of bytes, and no path holds the character U+0000.
-/

namespace Linkage

/-- A directory or file, as the components that lead to it. -/
abbrev FileName := List String

namespace FileName

/-- The first component of absolute names. -/
def slash : String := "/"

/-- The component that leads up. -/
def dots : String := ".."

/-- The name is that of the root, of a directory above it, or of the uppermost one. -/
def isAncestor (name : FileName) : Bool := name.all (· == dots) || name == [slash]

/-- The name lies outside a tree. -/
def isOutside (name : FileName) : Bool := name.head? == some dots || name.head? == some slash

/-- The directory above one. -/
def up (name : FileName) : FileName :=
  if name == [slash] then name
  else if name.isAncestor then name ++ [dots]
  else name.dropLast

end FileName

/-- Files and directories below a root. -/
structure FileTree where
  files : List (FileName × List UInt8) := []
  directories : List FileName := []
  deriving DecidableEq, Repr

/-- Where a walk along a path has come to. -/
inductive Place where
  | directory (name : FileName)
  | file (name : FileName)
  /-- Nothing yet, in a directory that exists. -/
  | absent (name : FileName)
  deriving DecidableEq, Repr

/-- Why a walk along a path ends. -/
inductive Obstacle where
  | notFound
  | notDirectory
  | nameTooLong
  | nulInPath
  deriving DecidableEq, Repr

/-- The error of a path that a walk does not get along. -/
def Obstacle.error (path : String) : Obstacle → FileError
  | .notFound     => .notFound path
  | .notDirectory => .notDirectory path
  | .nameTooLong  => .nameTooLong path
  | .nulInPath    => .nulInPath

namespace FileTree

/-- The greatest number of bytes in a path. -/
def pathLimit : Nat := 4095

/-- The greatest number of bytes in a component of a path. -/
def nameLimit : Nat := 255

/-- The content of a file. -/
def content? (t : FileTree) (name : FileName) : Option (List UInt8) :=
  (t.files.find? (·.1 == name)).map (·.2)

/-- What stands under a name. -/
def lookUp (t : FileTree) (name : FileName) : Place :=
  if name.isAncestor || t.directories.contains name then .directory name
  else if (t.content? name).isSome then .file name
  else .absent name

/-- One step of a walk. -/
def walkStep (t : FileTree) (place : Place) (part : List Char) : Except Obstacle Place :=
  match place with
  | .absent _       => .error .notFound
  | .file _         => .error .notDirectory
  | .directory name =>
    if part.isEmpty || part == ['.'] then .ok place
    else if part == ['.', '.'] then .ok (.directory name.up)
    else if nameLimit < (String.ofList part).utf8ByteSize then .error .nameTooLong
    else .ok (t.lookUp (name ++ [String.ofList part]))

/-- Where a path leads. -/
def walk (t : FileTree) (path : String) : Except Obstacle Place :=
  if holdsNul path then .error .nulInPath
  else if pathLimit < path.utf8ByteSize then .error .nameTooLong
  else if path.isEmpty then .error .notFound
  else
    let start : FileName := if path.toList.head? = some '/' then [FileName.slash] else []
    (pathComponents path).foldlM t.walkStep (.directory start)

/-- What stands at a path, if anything does. -/
def kind? (t : FileTree) (path : String) : Option FileKind :=
  match t.walk path with
  | .ok (.file _)      => some .file
  | .ok (.directory _) => some .directory
  | _                  => none

/-- The bytes of the file at a path. -/
def readBytes (t : FileTree) (path : String) : Except FileError (List UInt8) :=
  match t.walk path with
  | .error o           => .error (o.error path)
  | .ok (.directory _) => .error (.isDirectory path)
  | .ok (.absent _)    => .error (.notFound path)
  | .ok (.file name)   =>
    match t.content? name with
    | some bytes => .ok bytes
    | none       => .error (.notFound path)

/-- The tree with a file's content replaced, or with a new file. -/
def put (t : FileTree) (name : FileName) (bytes : List UInt8) : FileTree :=
  if (t.content? name).isSome then
    { t with files := t.files.map fun f => if f.1 == name then (name, bytes) else f }
  else { t with files := t.files ++ [(name, bytes)] }

/-- The tree after a text has been written to the file at a path. -/
def writeText (t : FileTree) (path text : String) : Except FileError FileTree :=
  match t.walk path with
  | .error o           => .error (o.error path)
  | .ok (.directory _) => .error (.isDirectory path)
  | .ok (.absent name) => .ok (t.put name text.toUTF8.toList)
  | .ok (.file name)   => .ok (t.put name text.toUTF8.toList)

/-- The files below the root that are new or have another content than in an earlier tree. -/
def changedSince (t earlier : FileTree) : List (FileName × List UInt8) :=
  t.files.filter fun f => !FileName.isOutside f.1 && earlier.content? f.1 != some f.2

/-- The file system of a tree, with the given standard input. -/
def fileSystem (input : List UInt8) : FileSystem (StateM FileTree) where
  kind? path := do return (← get).kind? path
  readBytes path := do return (← get).readBytes path
  standardInput := pure input
  writeText path text := do
    match (← get).writeText path text with
    | .ok t    => set t; return .ok ()
    | .error e => return .error e

end FileTree

end Linkage
