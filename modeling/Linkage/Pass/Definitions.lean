import Linkage.Pass.Outcome
import Linkage.Store
import Linkage.SymbolTable

/-!
# First pass — from definitions to the symbol table

The first pass visits every definition of a program, module by module.  The address of a
definition is its offset from the start of its module; it must be an address of the machine, and
is then written into the definition and entered into the table.  The table is frozen when all
definitions are in.
-/

namespace Linkage

/-- The definition with its address in the program. -/
def Definition.placed (d : Definition) (address : Int) : Definition :=
  { d with absolute := some address }

/-- An address beyond the machine, unless it is too large to be written. -/
def addressBeyond (settings : Settings) (address : Int) (location : Option Location)
    (moduleIndex : Int) : Failure :=
  if Numeral.isWritable address then
    .link ⟨.addressOutOfRange address settings.machineSize none, location, moduleIndex⟩
  else .numeral .tooLarge

namespace Module

/-- Visits one definition of the module. -/
def enterDefinition (settings : Settings) (m : Module) (_ : Nat) (t : SymbolTable)
    (d : Definition) : Outcome Definition SymbolTable :=
  match d.relative with
  | none        => ⟨d, [], .error (.fault .noOffsetToPlace)⟩
  | some offset =>
    let address := offset + m.start
    if settings.maxAddress < address then
      ⟨d, [], .error (addressBeyond settings address d.location m.index)⟩
    else
      let entry : Entry := ⟨d.name, address, m.index⟩
      match t.define entry d.location with
      | .ok t'   => ⟨d.placed address, t.defineEvents entry, .ok t'⟩
      | .error e => ⟨d.placed address, [], .error e⟩

/-- Visits the definitions of the module. -/
def enterDefinitions (settings : Settings) (t : SymbolTable) (m : Module) :
    Outcome Module SymbolTable :=
  (sweep (m.enterDefinition settings) 0 t m.definitions).mapReached
    fun ds => { m with definitions := ds }

end Module

/-- The first pass over a program. -/
def firstPass (settings : Settings) (s : Store) : Outcome Store SymbolTable :=
  let o := sweep (fun _ => Module.enterDefinitions settings) 0 (.empty settings.policy) s.modules
  ⟨⟨o.reached⟩, o.events, o.result.map SymbolTable.freeze⟩

end Linkage
