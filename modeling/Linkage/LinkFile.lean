import Linkage.FileSystem
import Linkage.Listing

/-!
# Linking — files

A program is read from a file, and the listing of its link is written to one.
-/

namespace Linkage

variable {m : Type → Type} [Monad m]

/-- The text of a file. -/
def readFile (fs : FileSystem m) (path : String) : m (Except FileError String) := do
  return (← fs.readBytes path).bind Encoding.readText

/-- Links the program in a file; locations carry the normal form of its path. -/
def linkFile (fs : FileSystem m) (settings : Settings) (path : String) : m (Run LinkResult) := do
  let path := normalPath path
  let source ← readFile fs path
  return do
    Run.report [.linking path]
    let text ← liftM (source.mapError Failure.file)
    linkText settings text path

/-- Writes the listing of a link result to a file. -/
def writeListing (fs : FileSystem m) (path : String) (r : LinkResult) (withModules : Bool) :
    m (Except FileError Unit) :=
  fs.writeText (normalPath path) (r.listing withModules)

end Linkage
