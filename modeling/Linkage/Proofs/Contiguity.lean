import Linkage.Pass.Definitions
import Linkage.Pass.Instructions
import Linkage.Proofs.Reading.Acceptance
import Mathlib.Logic.ExistsUnique
import Mathlib.Logic.Relation

/-!
# Layout — modules that share out the addresses of a program

A module occupies the addresses from its start to its end (`Module.Occupies`); without words its end
is before its start, and it occupies none.  In a laid-out store each module starts behind the end of
the one before it, and **the modules share out the addresses in order** (`LaidOut.contiguous`).

Whether a store is laid out is a matter of the index, the start and the length of its modules
(`Module.shape`), and of the last module the length does not matter (`laidOut_concat`).  The passes
keep the shape of every module, also when they fail, so they keep the layout of a program that has
been read (`laidOut_of_passes`).
-/

namespace Linkage

/-! ### Addresses of modules -/

/-- The address is that of a word of the module. -/
def Module.Occupies (m : Module) (a : Int) : Prop := m.start ≤ a ∧ a ≤ m.endLocation

namespace Store

variable {s : Store} {ms : List Module} {m : Module} {i j a : Nat}

/-- Each module begins behind the end of the one before it. -/
structure Contiguous (s : Store) : Prop where
  index : ∀ (i : Nat) (m : Module), s.modules[i]? = some m → m.index = i
  first : ∀ m, s.modules[0]? = some m → m.start = 0
  next : ∀ (i : Nat) (m m' : Module), s.modules[i]? = some m → s.modules[i + 1]? = some m' →
    (m'.start : Int) = m.endLocation + 1
  /-- The next module starts behind all words. -/
  nextStart : s.nextStart = s.totalLength
  /-- A module ends before those behind it start, also if it has no words. -/
  ordered : ∀ (i j : Nat) (m m' : Module), i < j → s.modules[i]? = some m →
    s.modules[j]? = some m' → m.endLocation < m'.start
  /-- The addresses of the program are occupied, each by one module. -/
  covers : ∀ a : Int, 0 ≤ a ∧ a < s.totalLength ↔
    ∃! i : Nat, ∃ m : Module, s.modules[i]? = some m ∧ m.Occupies a

/-! ### Laid-out stores -/

theorem startOf_succ (h : s.modules[i]? = some m) : s.startOf (i + 1) = s.startOf i + m.length := by
  rw [startOf, List.take_add_one, h, Option.toList_some, wordCount_append, wordCount_cons,
    wordCount_nil, Nat.add_zero]
  rfl

theorem startOf_le (s : Store) (h : i ≤ j) : s.startOf i ≤ s.startOf j := by
  have hsplit := List.take_append_drop i (s.modules.take j)
  rw [List.take_take, Nat.min_eq_left h] at hsplit
  rw [startOf, startOf, ← hsplit, wordCount_append]
  exact Nat.le_add_right _ _

/-- Every word is one of some module. -/
theorem exists_of_lt_wordCount (h : a < wordCount ms) :
    ∃ i m, ms[i]? = some m ∧ wordCount (ms.take i) ≤ a ∧ a < wordCount (ms.take i) + m.length := by
  induction ms generalizing a with
  | nil => exact absurd h (Nat.not_lt_zero a)
  | cons m ms ih =>
    by_cases ha : a < m.length
    · exact ⟨0, m, rfl, Nat.zero_le a, by rwa [List.take_zero, wordCount_nil, Nat.zero_add]⟩
    · rw [wordCount_cons] at h
      obtain ⟨i, m', hi, hle, hlt⟩ := ih (a := a - m.length) (by omega)
      refine ⟨i + 1, m', hi, ?_, ?_⟩
      · rw [List.take_succ_cons, wordCount_cons]
        omega
      · rw [List.take_succ_cons, wordCount_cons]
        omega

/-- **The modules of a laid-out store share out its addresses in order.** -/
theorem LaidOut.contiguous (h : s.LaidOut) : s.Contiguous := by
  have hend {i : Nat} {m : Module} (hm : s.modules[i]? = some m) :
      m.endLocation = (s.startOf (i + 1) : Int) - 1 := by
    rw [Module.endLocation, (h i m hm).2, startOf_succ hm, Int.natCast_add]
  have hordered (i j : Nat) (m m' : Module) (hij : i < j) (hm : s.modules[i]? = some m)
      (hm' : s.modules[j]? = some m') : m.endLocation < m'.start := by
    have hle : s.startOf (i + 1) ≤ s.startOf j := s.startOf_le hij
    rw [hend hm, (h j m' hm').2]
    omega
  refine ⟨fun i m hm => (h i m hm).1, fun m hm => (h 0 m hm).2, fun i m m' hm hm' => ?_, ?_,
    hordered, fun a => ⟨fun ⟨h₀, hlt⟩ => ?_, ?_⟩⟩
  · rw [hend hm, (h _ m' hm').2]
    omega
  · rw [h.nextStart_eq, totalLength_eq_wordCount]
  · -- the address is that of a word, and two modules that occupied it would be out of order
    obtain ⟨n, rfl⟩ := Int.eq_ofNat_of_zero_le h₀
    rw [totalLength_eq_wordCount] at hlt
    obtain ⟨i, m, hm, hle, hlt⟩ := exists_of_lt_wordCount (Int.ofNat_lt.1 hlt)
    have hstart : m.start = wordCount (s.modules.take i) := (h i m hm).2
    have hocc : m.Occupies n := by
      unfold Module.Occupies Module.endLocation
      omega
    refine ⟨i, ⟨m, hm, hocc⟩, ?_⟩
    rintro j ⟨m', hm', hocc'⟩
    rcases Nat.lt_trichotomy i j with hij | hij | hij
    · have hlt := hordered i j m m' hij hm hm'
      exact absurd (Int.lt_of_lt_of_le hlt hocc'.1) (Int.not_lt.2 hocc.2)
    · exact hij.symm
    · have hlt := hordered j i m' m hij hm' hm
      exact absurd (Int.lt_of_lt_of_le hlt hocc.1) (Int.not_lt.2 hocc'.2)
  · rintro ⟨i, ⟨m, hm, hlow, hhigh⟩, -⟩
    have hle := startOf_add_length_le hm
    rw [hend hm, startOf_succ hm] at hhigh
    omega

/-! ### What the layout depends on -/

/-- A store is laid out when the modules before its last one are and the last one stands behind
them. -/
theorem laidOut_concat :
    LaidOut ⟨ms ++ [m]⟩ ↔ LaidOut ⟨ms⟩ ∧ m.index = ms.length ∧ m.start = wordCount ms := by
  have hbefore {i : Nat} (hi : i ≤ ms.length) : startOf ⟨ms ++ [m]⟩ i = startOf ⟨ms⟩ i := by
    rw [startOf, startOf, List.take_append_of_le_length hi]
  have hlast : (ms ++ [m])[ms.length]? = some m := by simp
  constructor
  · intro h
    refine ⟨fun i m' hm' => ?_, ?_⟩
    · have hi := (List.getElem?_eq_some_iff.1 hm').1
      have hplace := h i m' ((List.getElem?_append_left hi).trans hm')
      rw [hbefore (Nat.le_of_lt hi)] at hplace
      exact hplace
    · have hplace := h ms.length m hlast
      rw [hbefore (Nat.le_refl _), startOf, List.take_length] at hplace
      exact hplace
  · rintro ⟨h, hindex, hstart⟩ i m' hm'
    have hlen := (List.getElem?_eq_some_iff.1 hm').1
    rw [List.length_append, List.length_singleton] at hlen
    rw [hbefore (Nat.le_of_lt_succ hlen)]
    rcases Nat.lt_or_eq_of_le (Nat.le_of_lt_succ hlen) with hi | rfl
    · exact h i m' ((List.getElem?_append_left hi).symm.trans hm')
    · cases hlast.symm.trans hm'
      exact ⟨hindex, by rw [hstart, startOf, List.take_length]⟩

/-- A module that is placed at the end of a laid-out store is laid out with it. -/
theorem LaidOut.append (h : s.LaidOut) (m : Module) : (s.append m).LaidOut :=
  laidOut_concat.2 ⟨h, rfl, h.nextStart_eq⟩

end Store

/-- The index, the start and the length of a module. -/
def Module.shape (m : Module) : Nat × Nat × Nat := (m.index, m.start, m.length)

/-- Modules of the same shapes have as many words. -/
theorem wordCount_eq_of_shape {ms ms' : List Module}
    (h : ms.map Module.shape = ms'.map Module.shape) : wordCount ms = wordCount ms' := by
  induction ms generalizing ms' with
  | nil => rw [List.map_eq_nil_iff.1 h.symm]
  | cons m ms ih =>
    obtain ⟨m', ms', rfl, hm, hms⟩ := List.map_eq_cons_iff.1 h.symm
    rw [wordCount_cons, wordCount_cons, ih hms.symm]
    exact congrArg (fun shape : Nat × Nat × Nat => shape.2.2 + _) hm.symm

/-- A store with the same shapes is laid out as well. -/
theorem Store.LaidOut.of_shape {s s' : Store} (h : s.LaidOut)
    (hs : s'.modules.map Module.shape = s.modules.map Module.shape) : s'.LaidOut := by
  intro i m' hm'
  have hi := congrArg (·[i]?) hs
  simp only [List.getElem?_map, hm', Option.map_some] at hi
  obtain ⟨m, hm, hshape⟩ := Option.map_eq_some_iff.1 hi.symm
  obtain ⟨hindex, hstart⟩ := h i m hm
  have htake := congrArg (List.take i) hs
  rw [← List.map_take, ← List.map_take] at htake
  rw [startOf, wordCount_eq_of_shape htake]
  obtain ⟨hi', hs', -⟩ : m.index = m'.index ∧ m.start = m'.start ∧ m.length = m'.length := by
    simpa [Module.shape] using hshape
  exact ⟨hi'.symm.trans hindex, hs'.symm.trans hstart⟩

/-! ### Passes -/

section

variable {s s' : Store}

theorem Module.shape_enterDefinitions (settings : Settings) (t : SymbolTable) (m : Module) :
    (m.enterDefinitions settings t).reached.shape = m.shape := rfl

theorem Module.shape_linkInstructions (settings : Settings) (t : SymbolTable) (w : MemoryMap)
    (m : Module) : (m.linkInstructions settings t w).reached.shape = m.shape := by
  have hlen : (m.linkInstructions settings t w).reached.length = m.length :=
    length_reached_sweep (m.linkInstruction settings t) 0 w m.instructions
  exact congrArg (fun n => (m.index, m.start, n)) hlen

/-- A sweep keeps what every visit keeps of its part, also where a visit fails. -/
theorem map_reached_sweep {σ α β : Type} {visit : Nat → α → σ → Outcome σ α} {f : σ → β}
    (h : ∀ i a x, f (visit i a x).reached = f x) (i : Nat) (a : α) (xs : List σ) :
    (sweep visit i a xs).reached.map f = xs.map f := by
  induction xs generalizing i a with
  | nil => rfl
  | cons x xs ih =>
    cases hx : (visit i a x).result with
    | error e => rw [sweep_cons_error hx, List.map_cons, List.map_cons, h]
    | ok b => rw [sweep_cons_ok hx, List.map_cons, List.map_cons, h, ih]

/-- One pass over a program, whatever becomes of it. -/
inductive Store.Pass : Store → Store → Prop where
  | first (settings : Settings) (s : Store) : Pass s (firstPass settings s).reached
  | second (settings : Settings) (s : Store) (t : SymbolTable) :
    Pass s (secondPass settings s t).reached

/-- A pass keeps the shapes of the modules. -/
theorem Store.Pass.shape (h : s.Pass s') :
    s'.modules.map Module.shape = s.modules.map Module.shape := by
  cases h with
  | first settings =>
    exact map_reached_sweep (fun _ t m => m.shape_enterDefinitions settings t) 0 _ s.modules
  | second settings _ t =>
    unfold secondPass
    split
    · rfl
    · exact map_reached_sweep (fun _ w m => m.shape_linkInstructions settings t w) 0 _ s.modules

/-- **Passes keep the layout of a program.** -/
theorem laidOut_of_passes (hs : s.LaidOut) (h : Relation.ReflTransGen Store.Pass s s') :
    s'.LaidOut := by
  induction h with
  | refl => exact hs
  | tail _ hpass ih => exact ih.of_shape hpass.shape

end

end Linkage
