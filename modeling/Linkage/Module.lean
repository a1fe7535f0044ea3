import Linkage.Settings
import Linkage.Location

/-!
# Modules — relocatable units and their parts

A module exports definitions (symbols at offsets from its start), lists the symbols it uses, and has
a text of instructions.  Each instruction is classified by how its address field is treated:
immediate and absolute addresses stay, a relative address is shifted by the module's start, an
external address picks an entry of the use list and is replaced by that symbol's address.

The length and the end of a module are derived from its text, so they agree with it at any
time.  The index and the start are given to a module when it is placed into a program.
-/

namespace Linkage

/-! ### Instructions -/

/-- How the address field of an instruction is treated. -/
inductive Classification where
  | immediate
  | absolute
  | relative
  | external
  deriving DecidableEq, Repr

namespace Classification

/-- The letter that stands for the classification in a program. -/
def letter : Classification → Char
  | .immediate => 'I'
  | .absolute  => 'A'
  | .relative  => 'R'
  | .external  => 'E'

/-- The classification in words. -/
def name : Classification → String
  | .immediate => "IMMEDIATE"
  | .absolute  => "ABSOLUTE"
  | .relative  => "RELATIVE"
  | .external  => "EXTERNAL"

/-- The address field is replaced when the program is relocated. -/
def isRelocatable : Classification → Bool
  | .immediate => false
  | .absolute  => false
  | .relative  => true
  | .external  => true

/-- The classification that a letter stands for. -/
def ofLetter? : Char → Option Classification
  | 'I' => some .immediate
  | 'A' => some .absolute
  | 'R' => some .relative
  | 'E' => some .external
  | _   => none

theorem ofLetter?_letter (k : Classification) : ofLetter? k.letter = some k := by
  cases k <;> rfl

theorem ofLetter?_eq_some {c : Char} {k : Classification} :
    ofLetter? c = some k ↔ c = k.letter := by
  constructor
  · intro h
    unfold ofLetter? at h
    split at h <;> cases h <;> rfl
  · rintro rfl
    exact ofLetter?_letter k

end Classification

/-- A word of a module's text. -/
structure Instruction where
  classification : Classification
  opcode : Int
  /-- The address field as it is now. -/
  address : Int
  /-- The address field as it was read. -/
  asRead : Int
  /-- Whether the address field has been replaced. -/
  relocated : Bool
  /-- Where the word was read. -/
  location : Option Location
  deriving DecidableEq, Repr

namespace Instruction

/-- An instruction as it is read, its address not yet replaced. -/
def fresh (classification : Classification) (opcode address : Int) (location : Option Location) :
    Instruction :=
  ⟨classification, opcode, address, address, false, location⟩

/-- The encoded word. -/
def word (x : Instruction) : Int := x.opcode * wordRadix + x.address

/-- The word as it was read. -/
def wordAsRead (x : Instruction) : Int := x.opcode * wordRadix + x.asRead

end Instruction

/-! ### Symbols -/

/-- A symbol that a module exports. -/
structure Definition where
  name : String
  /-- The offset from the module's start. -/
  relative : Option Int
  /-- The address in the program, once it is known. -/
  absolute : Option Int
  /-- Where the name was read. -/
  location : Option Location
  deriving DecidableEq, Repr

/-- A definition as it is read, its address in the program not yet known. -/
def Definition.fresh (name : String) (relative : Option Int) (location : Option Location) :
    Definition :=
  ⟨name, relative, none, location⟩

/-- The name with the address, or failing that the offset, that is known. -/
def Definition.text (d : Definition) : String :=
  match d.absolute, d.relative with
  | some a, _      => s!"{d.name}={a}"
  | none,   some r => s!"{d.name}={r}"
  | none,   none   => d.name

/-- A symbol that a module refers to. -/
structure Use where
  name : String
  location : Option Location
  deriving DecidableEq, Repr

/-! ### Modules -/

/-- A relocatable module. -/
structure Module where
  /-- The position in the program. -/
  index : Nat := 0
  /-- The address of the first word. -/
  start : Nat := 0
  definitions : List Definition := []
  uses : List Use := []
  instructions : List Instruction := []
  deriving DecidableEq, Repr

namespace Module

/-- The number of words. -/
def length (m : Module) : Nat := m.instructions.length

/-- The address of the last word; for a module without words, the address before its start. -/
def endLocation (m : Module) : Int := m.start + m.length - 1

/-- The module with one more definition. -/
def addDefinition (m : Module) (d : Definition) : Module :=
  { m with definitions := m.definitions ++ [d] }

/-- The module with one more use. -/
def addUse (m : Module) (u : Use) : Module := { m with uses := m.uses ++ [u] }

/-- The module with one more instruction. -/
def addInstruction (m : Module) (x : Instruction) : Module :=
  { m with instructions := m.instructions ++ [x] }

end Module

end Linkage
