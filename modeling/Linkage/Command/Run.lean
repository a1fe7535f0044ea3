import Linkage.Command.Options
import Linkage.Command.Report
import Linkage.Command.Texts
import Linkage.LinkFile
import Linkage.Settings.Environment

/-!
# Command line — linking a file

`Command.run` sorts the arguments, checks the values of the options and the input file, and
links.  The settings are those of the environment, overlaid by the options that were given.  The
listing is printed when the link has succeeded, and then written to the files that were asked for;
a failure before that leaves standard output and every file alone.

The effects are those of a file system that is passed in.
-/

namespace Linkage.Command

/-- What the arguments ask for. -/
structure Request where
  /-- The normal form of the input's path; a single dash is standard input. -/
  input : String
  output : Option String := none
  symbols : Option String := none
  policy : Option DuplicatePolicy := none
  machineSize : Option Int := none
  withModules : Bool := false
  verbose : Bool := false
  deriving DecidableEq, Repr

namespace Request

/-- Settings, overlaid by the options. -/
def overlay (r : Request) (s : Settings) : Settings :=
  { s with
    policy := (r.policy.map .known).getD s.policy
    machineSize := r.machineSize.getD s.machineSize }

/-- The name of the input in locations. -/
def inputName (r : Request) : String := if r.input = "-" then "<stdin>" else r.input

end Request

/-! ### Checking arguments -/

/-- The report of refused arguments.  A fault in the form of an option is printed without the usage
lines, and a path that holds U+0000 stops the command without a word. -/
def UsageError.report (e : UsageError) : Report :=
  let line := Category.argument.text false e.message
  match e with
  | .nulInPath => ⟨1, "", ""⟩
  | .valueMissing _ | .valueUnwanted _ => ⟨Category.argument.exitCode, "", line⟩
  | _ => ⟨Category.argument.exitCode, "", usageLine ++ helpLine ++ "\n" ++ line⟩

/-- The policy that the value of `--duplicates` names, in letters of either case. -/
def readPolicy (value : String) : Except UsageError DuplicatePolicy :=
  match DuplicatePolicy.ofWord? (folded value) with
  | some p => .ok p
  | none   =>
    let words := ", ".intercalate (DuplicatePolicy.all.map fun p => quoted p.word)
    .error (.badValue ValueOption.duplicates.name s!"{quoted value} is not one of {words}.")

/-- The size that the value of `--machine-size` writes. -/
def readMachineSize (value : String) : Except UsageError Int :=
  let refuse problem := .error (.badValue ValueOption.machineSize.name problem)
  match Numeral.readSigned? value with
  | none      => refuse s!"{quoted value} is not a valid integer range."
  | some size =>
    if 1 ≤ size ∧ size ≤ wordRadix then .ok size
    else refuse s!"{size} is not in the range 1<=x<={wordRadix}."

/-- The path of a file to be written; at most a file stands there. -/
def readOutput (s : ValueOption) (value : String) (kind : Option FileKind) :
    Except UsageError String :=
  if holdsNul value then .error .nulInPath
  else if kind = some .directory then
    .error (.badValue s.name s!"File {quoted value} is a directory.")
  else .ok (normalPath value)

/-- The path of the input; a file stands there, or the path is a single dash. -/
def readInput (value : String) (kind : Option FileKind) : Except UsageError String :=
  let parameter := "'INPUT_FILE'"
  if value = "-" then .ok value
  else if holdsNul value then .error .nulInPath
  else match kind with
    | none            => .error (.badValue parameter s!"File {quoted value} does not exist.")
    | some .directory => .error (.badValue parameter s!"File {quoted value} is a directory.")
    | some .file      => .ok (normalPath value)

section

variable {m : Type → Type} [Monad m]

/-- The request with the value of one more option. -/
def addValue (fs : FileSystem m) (r : Request) (s : ValueOption) (value : String) :
    m (Except UsageError Request) := do
  match s with
  | .output      =>
    return (readOutput s value (← fs.kind? value)).map fun path => { r with output := some path }
  | .symbols     =>
    return (readOutput s value (← fs.kind? value)).map fun path => { r with symbols := some path }
  | .duplicates  => return (readPolicy value).map fun p => { r with policy := some p }
  | .machineSize => return (readMachineSize value).map fun n => { r with machineSize := some n }

/-- The request with the values of more options, up to the first that is refused. -/
def addValues (fs : FileSystem m) (r : Request) :
    List (ValueOption × String) → m (Except UsageError Request)
  | []                => return .ok r
  | (s, value) :: rest => do
    match ← addValue fs r s value with
    | .ok r'   => addValues fs r' rest
    | .error e => return .error e

/-- The request that sorted arguments make: the values are checked first, then the input file, then
that no operand is left over. -/
def request (fs : FileSystem m) (a : Arguments) : m (Except UsageError Request) := do
  let flags : Request :=
    { input := "", withModules := a.flags.contains .modules, verbose := a.flags.contains .verbose }
  match ← addValues fs flags a.effective with
  | .error e => return .error e
  | .ok r    =>
    match a.operands with
    | []            => return .error .inputMissing
    | value :: rest =>
      match readInput value (← fs.kind? value) with
      | .error e  => return .error e
      | .ok input =>
        if rest.isEmpty then return .ok { r with input }
        else return .error (.extraOperands rest)

/-! ### Linking -/

/-- The text of the input. -/
def readSource (fs : FileSystem m) (input : String) : m (Except FileError String) := do
  if input = "-" then return Encoding.readText (← fs.standardInput)
  else readFile fs input

/-- Writes a text to a file that was asked for, if one was. -/
def writeRequested (fs : FileSystem m) (path : Option String) (text : String)
    (event : String → Event) : m (Except FileError (List Event)) := do
  match path with
  | none      => return .ok []
  | some path => return (← fs.writeText path text).map fun () => [event path]

/-- The summary that ends a verbose run. -/
def summary (r : LinkResult) : String :=
  s!"Linked {r.store.count} module(s): {r.memory.size} word(s), {r.symbols.count} symbol(s), "
    ++ s!"{r.warnings.length} warning(s)\n"

/-- The report of a link that has succeeded, after the events so far: the listing and the symbol
table are written to the files that were asked for. -/
def deliver (fs : FileSystem m) (r : Request) (events : List Event) (result : LinkResult) :
    m Report := do
  let stdout := result.listing r.withModules
  match ← writeRequested fs r.output stdout .listingWritten with
  | .error e    => return .failed r.verbose events stdout (.file e)
  | .ok written =>
    let events := events ++ written
    match ← writeRequested fs r.symbols (result.symbols.listing ++ "\n") .symbolsWritten with
    | .error e    => return .failed r.verbose events stdout (.file e)
    | .ok written =>
      let ending := if r.verbose then summary result else ""
      return ⟨0, stdout, log r.verbose (events ++ written) ++ ending⟩

/-- Links the input of a request. -/
def linkRequest (fs : FileSystem m) (env : Environment) (r : Request) : m Report := do
  let settings := r.overlay (.ofEnvironment env)
  match settings.validate with
  | .error e => return .failed r.verbose env.events "" (.settings e)
  | .ok ()   =>
    let events := env.events ++ [.commandLinking r.inputName]
    match ← readSource fs r.input with
    | .error e   => return .failed r.verbose events "" (.file e)
    | .ok source =>
      let link := linkText settings source r.inputName
      match link.result with
      | .error e   => return .failed r.verbose (events ++ link.events) "" e
      | .ok result => deliver fs r (events ++ link.events) result

/-- Runs the command with the given environment and arguments. -/
def run (fs : FileSystem m) (env : Environment) (args : List String) : m Report := do
  match Arguments.parse args with
  | .error e => return e.report
  | .ok a    =>
    match a.informative? with
    | some .version => return ⟨0, versionText, ""⟩
    | some _        => return ⟨0, helpText, ""⟩
    | none          =>
      match ← request fs a with
      | .error e => return e.report
      | .ok r    => linkRequest fs env r

end

end Linkage.Command
