import Linkage.Store

/-!
# Layout — the places of modules that are laid out back to back

`Store.appendAll` places modules at the end of a store, one behind the other.  What it does is said
without the store: `Store.placedFrom` gives the modules their indices and their starts, the start of
each being the sum of the lengths before it (`getElem?_placedFrom`).

* `getElem?_instructions`: the instructions of a module stand behind all words before it.
* `modules_appendAll`: placing modules at the end of a store adds them as `placedFrom` has them.
* `Store.ofModules`: the same places said module by module.  A store that has been built from the
  empty one is this one (`appendAll_empty`).
* `Store.LaidOut`: every module has its position as index and the words before it as start, as it
  has in `ofModules` (`laidOut_ofModules`).
* `LaidOut.appendAll`: behind a laid-out program the modules are those that stand alone, with their
  indices and starts shifted by that program's size (`Store.followedBy`).
-/

namespace Linkage

namespace Module

/-- The module at an index and a start. -/
def placedAt (m : Module) (index start : Nat) : Module := { m with index := index, start := start }

/-- The module behind `k` further modules with `n` words. -/
def shifted (k n : Nat) (m : Module) : Module := m.placedAt (m.index + k) (m.start + n)

@[simp] theorem length_placedAt (m : Module) (index start : Nat) :
    (m.placedAt index start).length = m.length := rfl

end Module

/-- The number of words of some modules. -/
def wordCount : List Module → Nat
  | []      => 0
  | m :: ms => m.length + wordCount ms

@[simp] theorem wordCount_nil : wordCount [] = 0 := rfl

@[simp] theorem wordCount_cons (m : Module) (ms : List Module) :
    wordCount (m :: ms) = m.length + wordCount ms := rfl

@[simp] theorem wordCount_append (ms ms' : List Module) :
    wordCount (ms ++ ms') = wordCount ms + wordCount ms' := by
  induction ms with
  | nil => exact (Nat.zero_add _).symm
  | cons m ms ih => rw [List.cons_append, wordCount_cons, ih, wordCount_cons, Nat.add_assoc]

/-- Modules of the same lengths have as many words. -/
theorem wordCount_map {f : Module → Module} (h : ∀ m, (f m).length = m.length) (ms : List Module) :
    wordCount (ms.map f) = wordCount ms := by
  induction ms with
  | nil => rfl
  | cons m ms ih => rw [List.map_cons, wordCount_cons, ih, h, wordCount_cons]

namespace Store

theorem totalLength_eq_wordCount (s : Store) : s.totalLength = wordCount s.modules := by
  have h : ∀ (ms : List Module) (n : Nat),
      ms.foldl (fun n m => n + m.length) n = n + wordCount ms := by
    intro ms
    induction ms with
    | nil => intro n; rfl
    | cons m ms ih => intro n; rw [List.foldl_cons, ih, wordCount_cons, Nat.add_assoc]
  rw [totalLength, h, Nat.zero_add]

/-! ### The instructions of a program -/

/-- The instructions of a program in order. -/
def instructions (s : Store) : List Instruction := s.modules.flatMap Module.instructions

/-- The words of a program in order. -/
def words (s : Store) : List Int := s.instructions.map Instruction.word

/-- The number of words before module `i`. -/
def startOf (s : Store) (i : Nat) : Nat := wordCount (s.modules.take i)

theorem length_instructions (s : Store) : s.instructions.length = wordCount s.modules := by
  obtain ⟨ms⟩ := s
  induction ms with
  | nil => rfl
  | cons m ms ih =>
    show (m.instructions ++ instructions ⟨ms⟩).length = m.length + wordCount ms
    rw [List.length_append, ih, Module.length]

/-- The instructions of a module stand behind all words before it. -/
theorem getElem?_instructions {s : Store} {i j : Nat} {m : Module} {x : Instruction}
    (hm : s.modules[i]? = some m) (hx : m.instructions[j]? = some x) :
    s.instructions[s.startOf i + j]? = some x := by
  -- by induction on the modules: behind the first one, all positions are less by its length
  obtain ⟨ms⟩ := s
  induction ms generalizing i with
  | nil => cases hm
  | cons m₀ ms ih =>
    show (m₀.instructions ++ instructions ⟨ms⟩)[wordCount ((m₀ :: ms).take i) + j]? = some x
    cases i with
    | zero =>
      obtain rfl : m₀ = m := Option.some.inj hm
      have hj : j < m₀.instructions.length := (List.getElem?_eq_some_iff.1 hx).1
      rw [List.take_zero, wordCount_nil, Nat.zero_add, List.getElem?_append_left hj, hx]
    | succ i =>
      rw [List.take_succ_cons, wordCount_cons, Nat.add_assoc, Module.length,
        List.getElem?_append_right (Nat.le_add_right _ _), Nat.add_sub_cancel_left]
      exact ih hm

/-! ### Modules placed one behind the other -/

/-- Modules placed one behind the other, the first at the given index and start. -/
def placedFrom (index start : Nat) : List Module → List Module
  | []      => []
  | m :: ms => m.placedAt index start :: placedFrom (index + 1) (start + m.length) ms

/-- The start of each module is the number of words before it. -/
theorem getElem?_placedFrom (index start : Nat) (ms : List Module) (i : Nat) :
    (placedFrom index start ms)[i]? =
      ms[i]?.map fun m => m.placedAt (index + i) (start + wordCount (ms.take i)) := by
  induction ms generalizing index start i with
  | nil => rfl
  | cons m ms ih =>
    cases i with
    | zero => rfl
    | succ i =>
      rw [placedFrom, List.getElem?_cons_succ, List.getElem?_cons_succ, ih, List.take_succ_cons,
        wordCount_cons, Nat.add_assoc, Nat.add_assoc, Nat.add_comm 1 i]

theorem wordCount_take_placedFrom (index start : Nat) (ms : List Module) (i : Nat) :
    wordCount ((placedFrom index start ms).take i) = wordCount (ms.take i) := by
  induction ms generalizing index start i with
  | nil => rfl
  | cons m ms ih =>
    cases i with
    | zero => rfl
    | succ i =>
      rw [placedFrom, List.take_succ_cons, List.take_succ_cons, wordCount_cons, ih,
        Module.length_placedAt, wordCount_cons]

theorem placedFrom_shift (k n index start : Nat) (ms : List Module) :
    placedFrom (index + k) (start + n) ms =
      (placedFrom index start ms).map (Module.shifted k n) := by
  induction ms generalizing index start with
  | nil => rfl
  | cons m ms ih =>
    rw [placedFrom, placedFrom, List.map_cons, ← ih, Nat.add_right_comm index k 1,
      Nat.add_right_comm start n]
    rfl

/-- A module that is placed is a module of the list with an index and a start of its own. -/
theorem exists_of_mem_placedFrom {index start : Nat} {ms : List Module} {m : Module}
    (h : m ∈ placedFrom index start ms) : ∃ m₀ ∈ ms, ∃ i n, m = m₀.placedAt i n := by
  obtain ⟨i, hi⟩ := List.mem_iff_getElem?.1 h
  rw [getElem?_placedFrom, Option.map_eq_some_iff] at hi
  obtain ⟨m₀, h₀, rfl⟩ := hi
  exact ⟨m₀, List.mem_of_getElem? h₀, _, _, rfl⟩

/-! ### A store and the modules at its end -/

/-- The store with some more modules at its end. -/
def appendAll (s : Store) (ms : List Module) : Store := ms.foldl append s

@[simp] theorem appendAll_nil (s : Store) : s.appendAll [] = s := rfl

@[simp] theorem appendAll_cons (s : Store) (m : Module) (ms : List Module) :
    s.appendAll (m :: ms) = (s.append m).appendAll ms := rfl

theorem modules_appendAll (s : Store) (ms : List Module) :
    (s.appendAll ms).modules = s.modules ++ placedFrom s.count s.nextStart ms := by
  induction ms generalizing s with
  | nil => rw [appendAll_nil, placedFrom, List.append_nil]
  | cons m ms ih =>
    rw [appendAll_cons, ih, count_append, nextStart_append, placedFrom, append, List.append_assoc]
    rfl

/-- The store that holds some modules: the index of each is its position, and its start the number
of instructions before it. -/
def ofModules (ms : List Module) : Store where
  modules := ms.mapIdx fun i m =>
    { m with
      index := i
      start := ((ms.take i).flatMap Module.instructions).length }

theorem modules_ofModules (ms : List Module) : (ofModules ms).modules = placedFrom 0 0 ms := by
  refine List.ext_getElem? fun i => ?_
  have hstart : ((ms.take i).flatMap Module.instructions).length = wordCount (ms.take i) :=
    length_instructions ⟨ms.take i⟩
  rw [ofModules, List.getElem?_mapIdx, getElem?_placedFrom]
  simp only [hstart, Nat.zero_add, Module.placedAt]

/-- **Placing modules one after another** gives them these indices and starts. -/
theorem appendAll_empty (ms : List Module) : empty.appendAll ms = ofModules ms :=
  congrArg Store.mk ((modules_appendAll empty ms).trans (modules_ofModules ms).symm)

@[simp] theorem count_appendAll (s : Store) (ms : List Module) :
    (s.appendAll ms).count = s.count + ms.length := by
  induction ms generalizing s with
  | nil => rfl
  | cons m ms ih =>
    rw [appendAll_cons, ih, count_append, List.length_cons, Nat.add_assoc, Nat.add_comm 1]

@[simp] theorem totalLength_appendAll (s : Store) (ms : List Module) :
    (s.appendAll ms).totalLength = s.totalLength + wordCount ms := by
  induction ms generalizing s with
  | nil => rfl
  | cons m ms ih => rw [appendAll_cons, ih, totalLength_append, wordCount_cons, Nat.add_assoc]

/-- A change of modules that looks neither at their indices nor at their starts, and keeps their
lengths, can be made before a module is placed or after it. -/
theorem append_map {φ : Module → Module}
    (hplaced : ∀ m index start, φ (m.placedAt index start) = (φ m).placedAt index start)
    (hlength : ∀ m, (φ m).length = m.length) (s : Store) (m : Module) :
    append ⟨s.modules.map φ⟩ (φ m) = ⟨(s.append m).modules.map φ⟩ := by
  have hnext : nextStart ⟨s.modules.map φ⟩ = s.nextStart := by
    unfold nextStart
    rw [List.getLast?_map]
    cases s.modules.getLast? with
    | none => rfl
    | some m =>
      have hm := congrArg Module.start (hplaced m m.index m.start)
      have hstart : (φ m).start = m.start := hm
      show (φ m).start + (φ m).length = m.start + m.length
      rw [hstart, hlength]
  have hcount : count ⟨s.modules.map φ⟩ = s.count := List.length_map _
  have hplace : place ⟨s.modules.map φ⟩ (φ m) = φ (s.place m) := by
    rw [place, hcount, hnext]
    exact (hplaced m s.count s.nextStart).symm
  show Store.mk (s.modules.map φ ++ [_]) = Store.mk ((s.modules ++ [_]).map φ)
  rw [hplace, List.map_append]
  rfl

/-! ### Laid-out stores -/

/-- Every module has its position as index and the number of words before it as start. -/
def LaidOut (s : Store) : Prop :=
  ∀ (i : Nat) (m : Module), s.modules[i]? = some m → m.index = i ∧ m.start = s.startOf i

theorem laidOut_ofModules (ms : List Module) : (ofModules ms).LaidOut := by
  intro i m h
  rw [modules_ofModules, getElem?_placedFrom, Option.map_eq_some_iff] at h
  obtain ⟨m₀, -, rfl⟩ := h
  rw [startOf, modules_ofModules, wordCount_take_placedFrom]
  exact ⟨Nat.zero_add i, Nat.zero_add _⟩

/-- The words of a module are words of the program. -/
theorem startOf_add_length_le {s : Store} {i : Nat} {m : Module} (h : s.modules[i]? = some m) :
    s.startOf i + m.length ≤ s.totalLength := by
  obtain ⟨hi, rfl⟩ := List.getElem?_eq_some_iff.1 h
  have hwords : wordCount (s.modules.take (i + 1)) + wordCount (s.modules.drop (i + 1)) =
      wordCount s.modules := by
    rw [← wordCount_append, List.take_append_drop]
  rw [List.take_add_one, h, Option.toList_some, wordCount_append, wordCount_cons, wordCount_nil,
    Nat.add_zero] at hwords
  rw [totalLength_eq_wordCount, ← hwords]
  exact Nat.le_add_right _ _

/-- In a laid-out store the next module starts behind all words. -/
theorem LaidOut.nextStart_eq {s : Store} (h : s.LaidOut) : s.nextStart = wordCount s.modules := by
  unfold nextStart
  cases hl : s.modules.getLast? with
  | none => rw [List.getLast?_eq_none_iff.1 hl]; rfl
  | some m =>
    obtain ⟨ms, hms⟩ := List.getLast?_eq_some_iff.1 hl
    have hm : s.modules[ms.length]? = some m := by simp [hms]
    simp only [(h _ m hm).2, startOf, hms, List.take_left, wordCount_append, wordCount_cons,
      wordCount_nil, Nat.add_zero]

/-- The modules of a program, and behind them those of another one. -/
def followedBy (s s' : Store) : Store :=
  ⟨s.modules ++ s'.modules.map (Module.shifted s.count (wordCount s.modules))⟩

theorem modules_followedBy (s s' : Store) : (s.followedBy s').modules =
    s.modules ++ s'.modules.map (Module.shifted s.count (wordCount s.modules)) := rfl

/-- **Behind a laid-out program** the modules are those that stand alone, shifted by its size. -/
theorem LaidOut.appendAll {s : Store} (h : s.LaidOut) (ms : List Module) :
    s.appendAll ms = s.followedBy (ofModules ms) := by
  have hm := modules_appendAll s ms
  rw [h.nextStart_eq, ← Nat.zero_add s.count, ← Nat.zero_add (wordCount s.modules),
    placedFrom_shift, ← modules_ofModules] at hm
  exact congrArg Store.mk hm

end Store

end Linkage
