import Linkage.Event
import Linkage.Store

/-!
# Warnings — suspicious constructs of a program that links

For each module in order: the definitions that lie at or beyond the end of the module; then, if
unused names are reported, the definitions that no module uses and the use list entries that no
external instruction of the module picks.  Instructions are looked at as they were read, so the
warnings are the same before and after relocation.

A definition that has no offset cannot be compared with the end of its module; a program that holds
one has no warnings but a fault (`collectWarnings`).
-/

namespace Linkage

/-- The definition lies at or beyond the end of a module of the given length. -/
def Definition.beyondWarning? (m : Module) (d : Definition) : Option Warning :=
  match d.relative with
  | some offset =>
    if m.length ≤ offset then some (.beyondModule m.index d.name offset m.length) else none
  | none => none

namespace Module

/-- The warnings about definitions at or beyond the end of the module. -/
def sizeWarnings (m : Module) : List Warning :=
  m.definitions.filterMap fun d => d.beyondWarning? m

/-- The warnings about definitions whose name is not among the names used. -/
def unusedWarnings (usedNames : List String) (m : Module) : List Warning :=
  (m.definitions.filter fun d => !usedNames.contains d.name).map fun d => .neverUsed m.index d.name

/-- The address fields that the external instructions of the module were read with. -/
def referenced (m : Module) : List Int :=
  (m.instructions.filter (·.classification == .external)).map Instruction.asRead

/-- The warnings about use list entries that no external instruction picks. -/
def unreferencedWarnings (m : Module) : List Warning :=
  (m.uses.zipIdx.filter fun (_, i) => !m.referenced.contains (i : Int)).map
    fun (u, _) => .neverReferenced m.index u.name

/-- All warnings about the module. -/
def warnings (settings : Settings) (usedNames : List String) (m : Module) : List Warning :=
  m.sizeWarnings ++
    if settings.warnUnused then m.unusedWarnings usedNames ++ m.unreferencedWarnings else []

/-- Every definition of the module has an offset. -/
def hasOffsets (m : Module) : Bool := m.definitions.all (·.relative.isSome)

end Module

/-- The names in the use lists of some modules. -/
def usedNames (modules : List Module) : List String :=
  modules.flatMap fun m => m.uses.map Use.name

/-- The warnings about modules whose definitions have offsets. -/
def warningsOf (settings : Settings) (modules : List Module) : List Warning :=
  modules.flatMap (Module.warnings settings (usedNames modules))

/-- The warnings about the modules of a program, each reported. -/
def collectWarnings (settings : Settings) (modules : List Module) : Run (List Warning) :=
  if modules.all Module.hasOffsets then
    ⟨(warningsOf settings modules).map .warned, .ok (warningsOf settings modules)⟩
  else ⟨[], .error (.fault .noOffsetToCompare)⟩

end Linkage
