import Linkage.Location

/-!
# Diagnostics — messages that point into the input

A diagnostic has a message, and where they are known the location of the offending token, the index
of the module being processed and a hint.  Its subject says what kind of fault it reports, together
with the facts of that kind; some of those facts are appended to the message.

    prog.txt:3:5: error: use index 2 out of range at instruction 0 (module 1)
    hint: module 1 lists 1 use(s)
-/

namespace Linkage

/-- The kind of fault that a diagnostic reports, with the facts of that kind. -/
inductive Subject where
  /-- A fault of no particular kind. -/
  | general
  /-- The tokens do not follow the grammar; `token` is the text of the offending one. -/
  | malformed (token : Option String)
  /-- A symbol has two definitions; `earlier` is the module of the first. -/
  | duplicate (symbol : String) (earlier : Option Int)
  /-- A reference cannot be resolved. -/
  | unresolved (symbol : Option String) (useIndex : Option Int) (instruction : Option Int)
  /-- An address does not lie below the limit. -/
  | outOfRange (address limit : Int) (instruction : Option Int)
  deriving DecidableEq, Repr

/-- A message about a program, with what is known of its place. -/
structure Diagnostic where
  subject : Subject
  message : String
  location : Option Location
  moduleIndex : Option Int
  hint : Option String
  deriving DecidableEq, Repr

namespace Diagnostic

/-- The diagnostic in full: location, message, module, and a hint that is not empty. -/
def text (d : Diagnostic) : String :=
  let place := match d.location with
    | some l => l.text ++ ": "
    | none   => ""
  let owner := match d.moduleIndex with
    | some i => s!" (module {i})"
    | none   => ""
  let hint := match d.hint with
    | some h => if h.isEmpty then "" else "\nhint: " ++ h
    | none   => ""
  place ++ "error: " ++ d.message ++ owner ++ hint

/-- The end of a message about one instruction. -/
def atInstruction : Option Int → String
  | some i => s!" at instruction {i}"
  | none   => ""

/-! ### One maker for each kind of fault -/

/-- A diagnostic of no particular kind. -/
def general (message : String) (location : Option Location) (moduleIndex : Option Int)
    (hint : Option String) : Diagnostic :=
  ⟨.general, message, location, moduleIndex, hint⟩

/-- A fault of the grammar; the offending token, if there is one, is quoted after the message. -/
def malformed (message : String) (token : Option String) (location : Option Location)
    (moduleIndex : Option Int) (hint : Option String) : Diagnostic :=
  let shown := match token with
    | some t => s!": '{t}'"
    | none   => ""
  ⟨.malformed token, message ++ shown, location, moduleIndex, hint⟩

/-- A second definition of a symbol; the hint names the module of the first. -/
def duplicate (symbol : String) (moduleIndex earlier : Option Int)
    (location : Option Location) : Diagnostic :=
  ⟨.duplicate symbol earlier, s!"duplicate definition of symbol '{symbol}'", location, moduleIndex,
    earlier.map fun i => s!"'{symbol}' was first defined in module {i}"⟩

/-- A reference that cannot be resolved. -/
def unresolved (message : String) (symbol : Option String) (useIndex instruction : Option Int)
    (moduleIndex : Option Int) (location : Option Location) (hint : Option String) : Diagnostic :=
  ⟨.unresolved symbol useIndex instruction, message ++ atInstruction instruction, location,
    moduleIndex, hint⟩

/-- An address that does not lie below the limit. -/
def outOfRange (address limit : Int) (instruction moduleIndex : Option Int)
    (location : Option Location) : Diagnostic :=
  ⟨.outOfRange address limit instruction,
    s!"address {address} outside range 0..{limit - 1}" ++ atInstruction instruction, location,
    moduleIndex, none⟩

end Diagnostic

end Linkage
