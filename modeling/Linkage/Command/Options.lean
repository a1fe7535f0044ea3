import Linkage.Failure
import Linkage.Similarity.CloseNames

/-!
# Command line — the options among the arguments

An option is a flag or takes a value.  Its long name begins with two dashes and may be joined to
the value by an equals sign; its short name is one letter behind one dash, several flags may stand
behind the same dash, and what stands behind the letter of an option with a value is the
value.  Otherwise the value is the next argument, whatever it looks like.

A single dash is no option.  Two dashes alone end the options: all arguments behind them are
operands.
-/

namespace Linkage.Command

/-- An option without a value. -/
inductive Flag where
  | modules
  | verbose
  | version
  | help
  deriving DecidableEq, Repr

/-- An option with a value. -/
inductive ValueOption where
  | output
  | symbols
  | duplicates
  | machineSize
  deriving DecidableEq, Repr

/-- An option. -/
inductive Opt where
  | flag (f : Flag)
  | value (s : ValueOption)
  deriving DecidableEq, Repr

/-- The options by their long names. -/
def longOptions : List (String × Opt) :=
  [("--output", .value .output), ("--symbols", .value .symbols), ("--modules", .flag .modules),
   ("--duplicates", .value .duplicates), ("--machine-size", .value .machineSize),
   ("--verbose", .flag .verbose), ("--version", .flag .version), ("--help", .flag .help)]

/-- The option that a long name names. -/
def longOption? (name : String) : Option Opt := longOptions.lookup name

/-- The option that a letter names. -/
def shortOption? : Char → Option Opt
  | 'o' => some (.value .output)
  | 's' => some (.value .symbols)
  | 'v' => some (.flag .verbose)
  | _   => none

/-- The option's name in messages. -/
def ValueOption.name : ValueOption → String
  | .output      => "'-o' / '--output'"
  | .symbols     => "'-s' / '--symbols'"
  | .duplicates  => "'--duplicates'"
  | .machineSize => "'--machine-size'"

/-- Why arguments are refused. -/
inductive UsageError where
  /-- No option has the name; `similar` are the long names close to it. -/
  | noSuchOption (name : String) (similar : List String)
  /-- An option with a value stands last. -/
  | valueMissing (name : String)
  /-- A flag is joined to a value. -/
  | valueUnwanted (name : String)
  /-- The input file is missing. -/
  | inputMissing
  /-- There are operands behind the input file. -/
  | extraOperands (operands : List String)
  /-- A value cannot be used. -/
  | badValue (parameter problem : String)
  /-- A path holds the character U+0000. -/
  | nulInPath
  deriving DecidableEq, Repr

/-- The names offered in place of an unknown one. -/
def offer : List String → String
  | []    => ""
  | [one] => s!" Did you mean {one}?"
  | names =>
    let sorted := names.mergeSort fun x y => !(y < x : Bool)
    " (Possible options: " ++ ", ".intercalate sorted ++ ")"

/-- The wording of a usage error. -/
def UsageError.message : UsageError → String
  | .noSuchOption name similar =>
    s!"No such option: {name}" ++ offer similar
  | .valueMissing name =>
    s!"Option {quoted name} requires an argument."
  | .valueUnwanted name =>
    s!"Option {quoted name} does not take a value."
  | .inputMissing =>
    "Missing argument 'INPUT_FILE'."
  | .extraOperands operands =>
    let plural := if operands.length = 1 then "" else "s"
    s!"Got unexpected extra argument{plural} (" ++ " ".intercalate operands ++ ")"
  | .badValue parameter problem =>
    s!"Invalid value for {parameter}: {problem}"
  | .nulInPath =>
    FileError.nulInPath.message

/-- The arguments sorted into options and operands. -/
structure Arguments where
  /-- The flags in the order given. -/
  flags : List Flag := []
  /-- The options with a value in the order given. -/
  values : List (ValueOption × String) := []
  /-- The arguments that belong to no option. -/
  operands : List String := []
  deriving DecidableEq, Repr

namespace Arguments

/-- The arguments with one more flag. -/
def addFlag (a : Arguments) (f : Flag) : Arguments := { a with flags := a.flags ++ [f] }

/-- The arguments with one more option that has a value. -/
def addValue (a : Arguments) (s : ValueOption) (value : String) : Arguments :=
  { a with values := a.values ++ [(s, value)] }

/-- The arguments with more operands. -/
def addOperands (a : Arguments) (operands : List String) : Arguments :=
  { a with operands := a.operands ++ operands }

/-- The letters behind a dash: the arguments with the options they name, and the option that still
needs a value, with its name. -/
def addLetters (a : Arguments) : List Char →
    Except UsageError (Arguments × Option (String × ValueOption))
  | []      => .ok (a, none)
  | c :: cs =>
    match shortOption? c with
    | none             => .error (.noSuchOption (String.ofList ['-', c]) [])
    | some (.flag f)   => (a.addFlag f).addLetters cs
    | some (.value s) =>
      if cs.isEmpty then .ok (a, some (String.ofList ['-', c], s))
      else .ok (a.addValue s (String.ofList cs), none)

/-- An argument that begins with a dash: the part before the first equals sign, and the part behind
it, if there is one. -/
def splitValue (arg : List Char) : String × Option String :=
  let name := arg.takeWhile (· != '=')
  match arg.dropWhile (· != '=') with
  | []         => (String.ofList name, none)
  | _ :: value => (String.ofList name, some (String.ofList value))

/-- An argument that begins with a dash and is longer: the arguments with the options it names, and
the option that still needs a value. -/
def addDashed (a : Arguments) (arg : List Char) :
    Except UsageError (Arguments × Option (String × ValueOption)) :=
  let (name, value) := splitValue arg
  match longOption? name, value with
  | some (.flag f), none         => .ok (a.addFlag f, none)
  | some (.flag _), some _       => .error (.valueUnwanted name)
  | some (.value s), none      => .ok (a, some (name, s))
  | some (.value s), some text => .ok (a.addValue s text, none)
  | none, _                      =>
    match arg with
    | '-' :: '-' :: _ =>
      .error (.noSuchOption name (Similarity.closeNames (longOptions.map (·.1)) name))
    | _               => a.addLetters (arg.drop 1)

/-- Sorts a list of arguments behind those already sorted. -/
def add (a : Arguments) : List String → Except UsageError Arguments
  | []          => .ok a
  | arg :: rest =>
    match arg.toList with
    | ['-', '-']    => .ok (a.addOperands rest)
    | '-' :: _ :: _ =>
      match a.addDashed arg.toList with
      | .error e                => .error e
      | .ok (b, none)           => b.add rest
      | .ok (b, some (name, s)) =>
        match rest with
        | []                 => .error (.valueMissing name)
        | value :: remaining => (b.addValue s value).add remaining
    | _             => (a.addOperands [arg]).add rest

/-- Sorts a list of arguments. -/
def parse (args : List String) : Except UsageError Arguments := add {} args

/-- The flag that ends the command before anything else is looked at. -/
def informative? (a : Arguments) : Option Flag :=
  a.flags.find? fun f => f == .version || f == .help

/-- The options with a value in the order of their first use, each with its last value. -/
def effective (a : Arguments) : List (ValueOption × String) :=
  a.values.foldl (fun found (s, value) =>
    if found.any (·.1 == s) then found.map fun entry => if entry.1 == s then (s, value) else entry
    else found ++ [(s, value)]) []

end Arguments

end Linkage.Command
