import Linkage.Link

/-!
# Listings — the text of a link result

A listing shows the symbol table and the memory map, and on request a dump of every module before
them.  Its sections are separated by blank lines.
-/

namespace Linkage

/-- Lines as one text, without a line feed at the end. -/
def joinLines (lines : List String) : String := "\n".intercalate lines

/-- The symbol table, one entry a line. -/
def SymbolTable.listing (t : SymbolTable) : String :=
  joinLines ("Symbol Table" :: t.entries.map Entry.text)

/-- The memory map, one word a line. -/
def MemoryMap.listing (m : MemoryMap) : String :=
  joinLines ("Memory Map" :: m.pairs.map fun (address, word) => s!"{address}:\t{word}")

/-- An instruction in a module dump: its letter, the word as read, the word as relocated. -/
def Instruction.listing (x : Instruction) : String :=
  let before := s!"\t{x.classification.letter}: {x.wordAsRead}"
  if x.relocated then before ++ s!" -> {x.word}" else before

/-- The dump of a module: its layout, definitions, uses and text. -/
def Module.listing (m : Module) : String :=
  joinLines <|
    [s!"Module {m.index}", s!"Start: {m.start}", s!"End: {m.endLocation}",
      s!"Length: {m.length}", s!"Defs: {m.definitions.length}"]
    ++ m.definitions.map (fun d => "\t" ++ d.text)
    ++ [s!"Uses: {m.uses.length}"]
    ++ m.uses.map (fun u => "\t" ++ u.name)
    ++ [s!"Text: {m.length}"]
    ++ m.instructions.map Instruction.listing

/-- The listing of modules, a table and a memory map. -/
def listing (modules : List Module) (symbols : SymbolTable) (memory : MemoryMap) : String :=
  "\n\n".intercalate (modules.map Module.listing ++ [symbols.listing, memory.listing]) ++ "\n"

/-- The listing of a link result, with or without the dumps of its modules. -/
def LinkResult.listing (r : LinkResult) (withModules : Bool) : String :=
  Linkage.listing (if withModules then r.store.modules else []) r.symbols r.memory

end Linkage
