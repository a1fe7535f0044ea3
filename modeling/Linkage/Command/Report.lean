import Linkage.Event
import Linkage.Text.ControlSequence

/-!
# Command line — what a run of the command leaves behind

A report is an exit code with the texts on standard output and standard error.  A failure ends the
command with the exit code of its category: a link error is printed as it is, the other categories
put a word in front of the message.  Control sequences of a terminal are left out of the message.

Events go to standard error, one a line: all of them with their level when the command is verbose,
and the warnings alone otherwise.
-/

namespace Linkage.Command

/-- What a run of the command leaves behind. -/
structure Report where
  exitCode : Nat
  stdout : String
  stderr : String
  deriving DecidableEq, Repr

/-- How a failure is reported. -/
inductive Category where
  /-- The program cannot be linked. -/
  | link
  /-- An argument, a setting or a path cannot be used. -/
  | argument
  /-- Anything else. -/
  | internal
  deriving DecidableEq, Repr

/-- The exit code of a category. -/
def Category.exitCode : Category → Nat
  | .link     => 1
  | .argument => 2
  | .internal => 3

/-- The message of a failure as it is printed.  A verbose command follows an internal error with the
trace of its origin, which is none. -/
def Category.text (c : Category) (verbose : Bool) (message : String) : String :=
  let line := withoutControlSequences message ++ "\n"
  match c with
  | .link     => line
  | .argument => "Error: " ++ line
  | .internal => "Internal error: " ++ line ++ if verbose then "NoneType: None\n" else ""

/-- How a failure is reported. -/
def categoryOf : Failure → Category
  | .settings _           => .argument
  | .link _               => .link
  | .misuse _             => .link
  | .numeral _            => .internal
  | .fault _              => .internal
  | .file (.notFound _)   => .argument
  | .file (.denied _)     => .argument
  | .file _               => .internal

/-- An event as a verbose command prints it. -/
def verboseLine (e : Event) : String := e.level.name ++ ": " ++ e.message ++ "\n"

/-- A warning as a command prints it that is not verbose. -/
def warningLine (e : Event) : String := "Warning: " ++ e.message ++ "\n"

/-- The log of a command. -/
def log (verbose : Bool) (events : List Event) : String :=
  if verbose then String.join (events.map verboseLine)
  else String.join ((events.filter (·.level == .warning)).map warningLine)

/-- The report of a command that a failure ends. -/
def Report.failed (verbose : Bool) (events : List Event) (stdout : String) (f : Failure) : Report :=
  let c := categoryOf f
  ⟨c.exitCode, stdout, log verbose events ++ c.text verbose f.message⟩

end Linkage.Command
