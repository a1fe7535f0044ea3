import Linkage.Command.Run

/-!
# Command line — the program

The command runs on the file system, the environment and the standard streams of the process.
-/

namespace Linkage.Process

/-- What stands at a path; nothing stands at the empty one. -/
def kind? (path : String) : IO (Option FileKind) := do
  let absolute := (← IO.currentDir) / path
  if path.isEmpty then return none
  else if ← absolute.isDir then return some .directory
  else if ← absolute.pathExists then return some .file
  else return none

/-- The error of an operation that failed on a path. -/
def fileError (path : String) (e : IO.Error) : IO FileError := do
  match e with
  | .permissionDenied ..  => return .denied path
  | .invalidArgument ..   => return .nameTooLong path
  | .inappropriateType .. =>
    if (← kind? path) = some .directory then return .isDirectory path
    else return .notDirectory path
  | _                     => return .notFound path

/-- All bytes of a stream, behind those already read. -/
partial def readAll (stream : IO.FS.Stream) (before : ByteArray) : IO ByteArray := do
  let bytes ← stream.read 65536
  if bytes.isEmpty then return before else readAll stream (before ++ bytes)

/-- The file system of the process. -/
def fileSystem : FileSystem IO where
  kind? := kind?
  readBytes path := do
    match ← (IO.FS.readBinFile path).toBaseIO with
    | .ok bytes => return .ok bytes.toList
    | .error e  => return .error (← fileError path e)
  standardInput := do return (← readAll (← IO.getStdin) .empty).toList
  writeText path text := do
    match ← (IO.FS.writeFile path text).toBaseIO with
    | .ok ()   => return .ok ()
    | .error e => return .error (← fileError path e)

/-- The environment of the process. -/
def environment : IO Environment := do
  return {
    machineSize := ← IO.getEnv Environment.machineSizeVariable
    duplicates := ← IO.getEnv Environment.duplicatesVariable
    warnUnused := ← IO.getEnv Environment.warnUnusedVariable }

end Linkage.Process

/-- Links the file that the arguments name. -/
def main (args : List String) : IO UInt32 := do
  let report ← Linkage.Command.run Linkage.Process.fileSystem (← Linkage.Process.environment) args
  (← IO.getStdout).putStr report.stdout
  (← IO.getStderr).putStr report.stderr
  return report.exitCode.toUInt32
