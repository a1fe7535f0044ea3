import Linkage.Failure
import Linkage.Module

/-!
# Events — what a run reports about itself

An event is one line of a run's log.  It has a level, the component that reports it, and a wording.
A warning is about a construct that links although it is suspicious; each is reported as an event of
its own.

`Run` is the result of an operation together with the events it reported on the way, which are kept
also when it fails.
-/

namespace Linkage

/-! ### Warnings -/

/-- A suspicious construct of a program. -/
inductive Warning where
  /-- A definition lies at or beyond the end of its module. -/
  | beyondModule (moduleIndex : Nat) (symbol : String) (offset : Int) (size : Nat)
  /-- A symbol is defined and in no use list. -/
  | neverUsed (moduleIndex : Nat) (symbol : String)
  /-- A use list entry is picked by no external instruction. -/
  | neverReferenced (moduleIndex : Nat) (symbol : String)
  deriving DecidableEq, Repr

/-- The wording of a warning. -/
def Warning.message : Warning → String
  | .beyondModule i symbol offset size =>
    s!"Module {i}: definition of '{symbol}' at relative address {offset} "
      ++ s!"exceeds module size {size}"
  | .neverUsed i symbol =>
    s!"Module {i}: '{symbol}' is defined but never used"
  | .neverReferenced i symbol =>
    s!"Module {i}: '{symbol}' appears in the use list but is not referenced"

/-! ### Events -/

/-- How much an event matters. -/
inductive Level where
  | debug
  | info
  | warning
  deriving DecidableEq, Repr

/-- The level's name in a log. -/
def Level.name : Level → String
  | .debug   => "DEBUG"
  | .info    => "INFO"
  | .warning => "WARNING"

/-- The part of the program that reports an event. -/
inductive Component where
  | parser
  | symbols
  | linker
  | settings
  | command
  deriving DecidableEq, Repr

/-- One line of a log. -/
inductive Event where
  /-- The count of a section was read. -/
  | sectionCounted (moduleIndex count : Nat) (part : Section)
  /-- A module was placed into the program. -/
  | modulePlaced (index start length : Nat) (endLocation : Int)
  /-- All tokens were read. -/
  | programRead (modules words : Nat)
  /-- A symbol was entered into the table. -/
  | symbolDefined (name : String) (address moduleIndex : Int)
  /-- A symbol was entered again. -/
  | symbolRedefined (name : String) (previous moduleIndex : Int) (policy : DuplicatePolicy)
  /-- The address field of an instruction was replaced. -/
  | instructionRelocated (moduleIndex instruction : Nat) (classification : Classification)
      (asRead address : Int)
  /-- The symbol table is complete. -/
  | symbolsComplete (count : Nat)
  /-- The memory map is complete. -/
  | wordsComplete (count : Nat)
  /-- A warning about the program. -/
  | warned (warning : Warning)
  /-- The linking of a file begins. -/
  | linking (filename : String)
  /-- The linking of a file begins on the command line. -/
  | commandLinking (filename : String)
  /-- An environment variable holds no usable value. -/
  | settingIgnored (variableName value : String)
  /-- The listing was written to a file. -/
  | listingWritten (path : String)
  /-- The symbol table was written to a file. -/
  | symbolsWritten (path : String)
  deriving DecidableEq, Repr

namespace Event

/-- How much the event matters. -/
def level : Event → Level
  | .sectionCounted ..       => .debug
  | .modulePlaced ..         => .debug
  | .programRead ..          => .debug
  | .symbolDefined ..        => .debug
  | .symbolRedefined ..      => .warning
  | .instructionRelocated .. => .debug
  | .symbolsComplete ..      => .debug
  | .wordsComplete ..        => .debug
  | .warned ..               => .warning
  | .linking ..              => .info
  | .commandLinking ..       => .info
  | .settingIgnored ..       => .warning
  | .listingWritten ..       => .info
  | .symbolsWritten ..       => .info

/-- The part of the program that reports the event. -/
def component : Event → Component
  | .sectionCounted ..       => .parser
  | .modulePlaced ..         => .parser
  | .programRead ..          => .parser
  | .symbolDefined ..        => .symbols
  | .symbolRedefined ..      => .symbols
  | .instructionRelocated .. => .linker
  | .symbolsComplete ..      => .linker
  | .wordsComplete ..        => .linker
  | .warned ..               => .linker
  | .linking ..              => .linker
  | .commandLinking ..       => .command
  | .settingIgnored ..       => .settings
  | .listingWritten ..       => .command
  | .symbolsWritten ..       => .command

/-- The wording of the event. -/
def message : Event → String
  | .sectionCounted i count part =>
    s!"Module {i}: {count} {part.name}"
  | .modulePlaced i start length endLocation =>
    s!"Module {i}: start={start} length={length} end={endLocation}"
  | .programRead modules words =>
    s!"Parsed {modules} module(s), {words} word(s)"
  | .symbolDefined name address i =>
    s!"Defined {name}={address} (module {i})"
  | .symbolRedefined name previous i policy =>
    s!"Symbol '{name}' defined in modules {previous} and {i}; using the {policy.word} definition"
  | .instructionRelocated i instruction classification asRead address =>
    s!"Module {i} instruction {instruction}: {classification.name} {asRead} -> {address}"
  | .symbolsComplete count =>
    s!"First pass complete: {count} symbol(s)"
  | .wordsComplete count =>
    s!"Second pass complete: {count} word(s)"
  | .warned w =>
    w.message
  | .linking filename | .commandLinking filename =>
    s!"Linking {filename}"
  | .settingIgnored variableName value =>
    s!"Ignoring invalid {variableName}={quoted value}"
  | .listingWritten path =>
    s!"Wrote listing to {path}"
  | .symbolsWritten path =>
    s!"Wrote symbols to {path}"

end Event

/-! ### Runs -/

/-- What an operation reported, and the value it reached or the failure that stopped it. -/
structure Run (α : Type) where
  events : List Event
  result : Except Failure α

namespace Run

/-- A run that reports nothing. -/
def ofResult {α : Type} (r : Except Failure α) : Run α := ⟨[], r⟩

/-- A run that reports one event after another. -/
def report (events : List Event) : Run Unit := ⟨events, .ok ()⟩

/-- The second run takes over the value of the first, unless that failed. -/
protected def bind {α β : Type} (r : Run α) (f : α → Run β) : Run β :=
  match r.result with
  | .ok a    => ⟨r.events ++ (f a).events, (f a).result⟩
  | .error e => ⟨r.events, .error e⟩

instance : Monad Run where
  pure a := ⟨[], .ok a⟩
  bind := Run.bind

instance : MonadLift (Except Failure) Run := ⟨ofResult⟩

theorem result_bind {α β : Type} (r : Run α) (f : α → Run β) :
    (r >>= f).result = r.result.bind fun a => (f a).result := by
  change (Run.bind r f).result = _
  unfold Run.bind
  cases r.result <;> rfl

end Run

end Linkage
