import Linkage.MemoryMap
import Linkage.Pass.Outcome
import Linkage.Similarity.CloseNames
import Linkage.Store
import Linkage.SymbolTable

/-!
# Second pass — from instructions to the memory map

The second pass visits every instruction of a program, module by module.  A relative address is
shifted by the start of the module, an external address picks a use of the module and is replaced
by the address of the symbol used; immediate and absolute addresses stay.  The address that
results must be one of the machine; the word is then appended to the memory map.

An instruction is relocated at most once.  The pass needs a frozen table, since a symbol may be
defined in a later module than the one that uses it.
-/

namespace Linkage

/-- The instruction with its address field replaced. -/
def Instruction.relocate (x : Instruction) (address : Int) : Except Failure Instruction :=
  if x.relocated then .error (.misuse (.relocatedTwice x.word))
  else .ok { x with address := address, relocated := true }

namespace Module

/-- A failure to resolve the instruction `x` of the module. -/
def unresolved (m : Module) (x : Instruction) (cause : Cause) : Failure :=
  .link ⟨cause, x.location, m.index⟩

/-- The address of the symbol that the external instruction `x` at position `i` refers to. -/
def externalAddress (m : Module) (t : SymbolTable) (i : Nat) (x : Instruction) :
    Except Failure Int :=
  if m.uses.length ≤ x.address then
    .error (m.unresolved x (.useOutOfRange x.address i m.uses.length))
  else
    match elementAt m.uses x.address with
    | .error e => .error e
    | .ok use  =>
      match t.lookup use.name with
      | some entry => .ok entry.address
      | none       =>
        .error (m.unresolved x (.undefinedSymbol use.name x.address i
          (Similarity.closeNames t.names use.name)))

/-- The instruction `x` at position `i` of the module, relocated as its classification asks. -/
def relocated (m : Module) (t : SymbolTable) (i : Nat) (x : Instruction) :
    Except Failure Instruction :=
  match x.classification with
  | .immediate => .ok x
  | .absolute  => .ok x
  | .relative  => x.relocate (x.address + m.start)
  | .external  => do x.relocate (← m.externalAddress t i x)

/-- The events of relocating an instruction, which is now `x`. -/
def relocatedEvents (m : Module) (i : Nat) (x : Instruction) : List Event :=
  if x.classification.isRelocatable then
    [.instructionRelocated m.index i x.classification x.asRead x.address]
  else []

/-- Visits the instruction at position `i` of the module. -/
def linkInstruction (settings : Settings) (t : SymbolTable) (m : Module) (i : Nat)
    (words : MemoryMap) (x : Instruction) : Outcome Instruction MemoryMap :=
  match m.relocated t i x with
  | .error e => ⟨x, [], .error e⟩
  | .ok y    =>
    ⟨y, m.relocatedEvents i y,
      if settings.maxAddress < y.address then
        .error (m.unresolved y (.addressOutOfRange y.address settings.machineSize (some i)))
      else .ok (words.append y.word)⟩

/-- Visits the instructions of the module. -/
def linkInstructions (settings : Settings) (t : SymbolTable) (words : MemoryMap) (m : Module) :
    Outcome Module MemoryMap :=
  (sweep (m.linkInstruction settings t) 0 words m.instructions).mapReached
    fun xs => { m with instructions := xs }

end Module

/-- The failure of a second pass whose table may still change. -/
def SymbolTable.requireFrozen (t : SymbolTable) : Except Failure Unit :=
  if t.frozen then .ok () else .error (.misuse .unfrozenTable)

/-- The second pass over a program. -/
def secondPass (settings : Settings) (s : Store) (t : SymbolTable) : Outcome Store MemoryMap :=
  match t.requireFrozen with
  | .error e => ⟨s, [], .error e⟩
  | .ok ()   =>
    (sweep (fun _ => Module.linkInstructions settings t) 0 .empty s.modules).mapReached Store.mk

end Linkage
