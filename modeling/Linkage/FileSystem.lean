import Linkage.Text.Encoding

/-!
# Files — what the program needs of a file system

A `FileSystem` offers four operations: what stands at a path, the bytes of a file, the bytes of
standard input, and the replacement of a file's text.  Paths are texts.  A path as it was given is
looked up literally; files are read and written by their normal form (`normalPath`).
-/

namespace Linkage

/-- What stands at a path. -/
inductive FileKind where
  | file
  | directory
  deriving DecidableEq, Repr

/-- The operations of a file system whose effects are those of `m`. -/
structure FileSystem (m : Type → Type) where
  /-- What stands at a path, if anything does. -/
  kind? : String → m (Option FileKind)
  /-- The bytes of a file. -/
  readBytes : String → m (Except FileError (List UInt8))
  /-- The bytes of standard input. -/
  standardInput : m (List UInt8)
  /-- Makes a text the content of a file. -/
  writeText : String → String → m (Except FileError Unit)

/-- The components of a path. -/
def pathComponents (path : String) : List (List Char) := path.toList.splitOn '/'

/-- The path holds the character U+0000, and no file system takes it. -/
def holdsNul (path : String) : Bool := path.toList.contains '\x00'

/-- The normal form of a path: no component is empty or a single dot, and a path without components
is a single dot. -/
def normalPath (path : String) : String :=
  let parts := (pathComponents path).filter fun part => !part.isEmpty && part != ['.']
  let root := match path.toList with
    | '/' :: '/' :: '/' :: _ => "/"
    | '/' :: '/' :: _        => "//"
    | '/' :: _               => "/"
    | _                      => ""
  let text := root ++ "/".intercalate (parts.map String.ofList)
  if text.isEmpty then "." else text

end Linkage
