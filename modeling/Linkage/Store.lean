import Linkage.Module

/-!
# Stores — the modules of a program, laid out back to back

A store holds the modules of a program in order.  A module that is placed at its end is given the
next index and starts right after the module before it; neither changes afterwards.
-/

namespace Linkage

/-- The modules of a program in order. -/
structure Store where
  modules : List Module := []
  deriving DecidableEq, Repr

namespace Store

/-- The store without modules. -/
def empty : Store := ⟨[]⟩

/-- The number of modules. -/
def count (s : Store) : Nat := s.modules.length

/-- The number of words of all modules. -/
def totalLength (s : Store) : Nat := s.modules.foldl (fun n m => n + m.length) 0

/-- The start of the module that is placed next. -/
def nextStart (s : Store) : Nat :=
  match s.modules.getLast? with
  | some m => m.start + m.length
  | none   => 0

/-- The module as it is when it is placed at the end of the store. -/
def place (s : Store) (m : Module) : Module := { m with index := s.count, start := s.nextStart }

/-- The store with one more module at its end. -/
def append (s : Store) (m : Module) : Store := ⟨s.modules ++ [s.place m]⟩

@[simp] theorem count_append (s : Store) (m : Module) : (s.append m).count = s.count + 1 := by
  simp [count, append]

@[simp] theorem totalLength_append (s : Store) (m : Module) :
    (s.append m).totalLength = s.totalLength + m.length := by
  simp [totalLength, append, place, Module.length]

/-- After a module has been placed, the next one starts behind it. -/
theorem nextStart_append (s : Store) (m : Module) :
    (s.append m).nextStart = s.nextStart + m.length := by
  simp [nextStart, append, place, Module.length]

end Store

end Linkage
