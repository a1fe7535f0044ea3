import Linkage.Indexing

/-!
# Memory map — the linked words of a program

The address of a word is its position in the map.
-/

namespace Linkage

/-- The words of a linked program in order. -/
structure MemoryMap where
  words : List Int := []
  deriving DecidableEq, Repr

namespace MemoryMap

/-- The map without words. -/
def empty : MemoryMap := ⟨[]⟩

/-- The map with one more word at its end. -/
def append (m : MemoryMap) (word : Int) : MemoryMap := ⟨m.words ++ [word]⟩

/-- The number of words. -/
def size (m : MemoryMap) : Nat := m.words.length

/-- The word at a position, which may count from the end. -/
def get (m : MemoryMap) (position : Int) : Except Failure Int := elementAt m.words position

/-- The addresses with their words. -/
def pairs (m : MemoryMap) : List (Nat × Int) := m.words.zipIdx.map fun (word, i) => (i, word)

end MemoryMap

end Linkage
