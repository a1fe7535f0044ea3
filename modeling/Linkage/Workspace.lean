import Linkage.Indexing
import Linkage.Pass.Definitions
import Linkage.Pass.Instructions
import Linkage.Warnings

/-!
# Workspace — modules that are built by hand and may be shared

A workspace is a pool of modules together with a program, a list of references into the pool.  A
module of the pool may stand in the program more than once or not at all; a change to it shows at
every place.  Placing a module gives it the index and the start of its last place.

The passes and the warnings are those of a store.  They visit the places of the program in order, so
a module that stands twice is visited twice, the second time as the first visit left it.
-/

namespace Linkage

/-- Modules, and the program made of some of them. -/
structure Workspace where
  pool : List Module := []
  /-- The modules of the program, as indexes into the pool. -/
  program : List Nat := []
  deriving DecidableEq, Repr

/-- The outcome of a step on a workspace. -/
abbrev Workspace.Step (α : Type) := Outcome Workspace α

namespace Workspace

/-- The workspace with a store in place of its program; modules of the pool stay. -/
def load (w : Workspace) (s : Store) : Workspace :=
  ⟨w.pool ++ s.modules, (List.range s.modules.length).map (w.pool.length + ·)⟩

/-- The module that a reference means. -/
def get (w : Workspace) (ref : Nat) : Module := w.pool.getD ref {}

/-- The modules of the program, one for every place. -/
def modules (w : Workspace) : List Module := w.program.map w.get

/-- The program as a store. -/
def store (w : Workspace) : Store := ⟨w.modules⟩

/-- The workspace with the module of a reference replaced. -/
def set (w : Workspace) (ref : Nat) (m : Module) : Workspace := { w with pool := w.pool.set ref m }

/-- The workspace with a module changed. -/
def modify (w : Workspace) (ref : Nat) (f : Module → Module) : Workspace :=
  w.set ref (f (w.get ref))

/-- The workspace with one more module in the pool. -/
def add (w : Workspace) (m : Module) : Workspace := { w with pool := w.pool ++ [m] }

/-- The reference at a place of the program, which may count from the end. -/
def place (w : Workspace) (position : Int) : Except Failure Nat := elementAt w.program position

/-- The workspace with a module placed at the end of its program. -/
def append (w : Workspace) (ref : Nat) : Workspace :=
  { w.set ref (w.store.place (w.get ref)) with program := w.program ++ [ref] }

/-- Visits the modules at some places. -/
def sweep {α : Type} (visit : α → Module → Outcome Module α) (w : Workspace) (a : α) :
    List Nat → Step α
  | []          => ⟨w, [], .ok a⟩
  | ref :: refs =>
    let o := visit a (w.get ref)
    let w' := w.set ref o.reached
    match o.result with
    | .error e => ⟨w', o.events, .error e⟩
    | .ok b    =>
      let rest := sweep visit w' b refs
      { rest with events := o.events ++ rest.events }

/-- The first pass over the program. -/
def firstPass (settings : Settings) (w : Workspace) : Step SymbolTable :=
  let o := sweep (Module.enterDefinitions settings) w (.empty settings.policy) w.program
  { o with result := o.result.map SymbolTable.freeze }

/-- The second pass over the program. -/
def secondPass (settings : Settings) (t : SymbolTable) (w : Workspace) : Step MemoryMap :=
  match t.requireFrozen with
  | .error e => ⟨w, [], .error e⟩
  | .ok ()   => sweep (Module.linkInstructions settings t) w .empty w.program

/-- Relocates the instruction at a position, which may count from the end, of a module. -/
def relocate (w : Workspace) (ref : Nat) (position address : Int) : Step Instruction :=
  let m := w.get ref
  match (elementAt m.instructions position).bind (·.relocate address) with
  | .error e => ⟨w, [], .error e⟩
  | .ok y    =>
    ⟨w.set ref { m with instructions := replaceAt m.instructions position y }, [], .ok y⟩

end Workspace

end Linkage
