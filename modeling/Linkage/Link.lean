import Linkage.Pass.Definitions
import Linkage.Pass.Instructions
import Linkage.Reading.Program
import Linkage.Warnings

/-!
# Linking — from tokens to a memory map

A link reads a program, enters its definitions, relocates its instructions and collects the
warnings.  It gives all of these, or the first failure and nothing else.
-/

namespace Linkage

/-- Everything that a successful link gives. -/
structure LinkResult where
  /-- The modules, their instructions relocated. -/
  store : Store
  /-- The symbol table, frozen. -/
  symbols : SymbolTable
  memory : MemoryMap
  warnings : List Warning
  deriving DecidableEq, Repr

/-- The run of a pass over a program: the program as the pass left it, with the value reached. -/
def Outcome.run {α : Type} (o : Outcome Store α) : Run (Store × α) :=
  ⟨o.events, o.result.map fun a => (o.reached, a)⟩

/-- Links a list of tokens. -/
def link (settings : Settings) (tokens : List Token) : Run LinkResult := do
  let parsed ← Store.ofTokens settings tokens
  let (defined, symbols) ← (firstPass settings parsed).run
  Run.report [.symbolsComplete symbols.count]
  let (store, memory) ← (secondPass settings defined symbols).run
  Run.report [.wordsComplete memory.size]
  let warnings ← collectWarnings settings store.modules
  return ⟨store, symbols, memory, warnings⟩

/-- Links a program text; `filename` is the name that locations carry. -/
def linkText (settings : Settings) (source filename : String) : Run LinkResult :=
  link settings (Token.scan source filename)

end Linkage
