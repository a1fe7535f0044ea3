import Linkage.Pass.Instructions
import Linkage.Proofs.Layout
import Linkage.Proofs.Sweep

/-!
# Second pass — the words of a program

`Module.finalAddress?` says without changing anything which address an instruction gets: its own,
its own shifted by the start of the module, or that of the symbol it refers to.  What symbols stand
for is a parameter, so the same definition serves a table and the entries of a program.

* `relocated_eq_ok`: relocating an instruction replaces its address by the final one, and succeeds
  when there is one and the instruction has not been relocated before.
* `secondPass_eq_ok`: the pass succeeds when every instruction has a final address, one of the
  machine, and it gives the words of the linked program (`Store.linked`).
* `reached_secondPass`: it has then relocated every instruction.
-/

namespace Linkage

/-! ### Final addresses -/

/-- The address that a name stands for in a table. -/
def SymbolTable.addressOf (t : SymbolTable) (name : String) : Option Int :=
  (t.lookup name).map Entry.address

/-- The instruction once its address field has been treated as its classification asks. -/
def Instruction.linkedAt (x : Instruction) (address : Int) : Instruction :=
  { x with address := address, relocated := x.relocated || x.classification.isRelocatable }

namespace Module

/-- The address that an instruction of the module gets, where names stand for the given addresses;
there is none for an external instruction that refers to no symbol. -/
def finalAddress? (addressOf : String → Option Int) (m : Module) (x : Instruction) : Option Int :=
  match x.classification with
  | .immediate => some x.address
  | .absolute  => some x.address
  | .relative  => some (x.address + m.start)
  | .external  => (elementAt? m.uses x.address).bind fun u => addressOf u.name

/-- The instruction of the module with its final address. -/
def linkedInstruction (addressOf : String → Option Int) (m : Module) (x : Instruction) :
    Instruction :=
  x.linkedAt ((m.finalAddress? addressOf x).getD x.address)

/-- The module with the final addresses of its instructions. -/
def linked (addressOf : String → Option Int) (m : Module) : Module :=
  { m with instructions := m.instructions.map (m.linkedInstruction addressOf) }

/-- The instruction has a final address, one of the machine, and is yet to get it. -/
def Links (settings : Settings) (addressOf : String → Option Int) (m : Module) (x : Instruction) :
    Prop :=
  ∃ a, m.finalAddress? addressOf x = some a ∧ a ≤ settings.maxAddress ∧
    (x.classification.isRelocatable = true → x.relocated = false)

end Module

namespace Store

/-- The program with the final addresses of its instructions. -/
def linked (addressOf : String → Option Int) (s : Store) : Store :=
  ⟨s.modules.map (Module.linked addressOf)⟩

end Store

/-! ### One instruction -/

section

variable {settings : Settings} {m : Module} {t : SymbolTable} {i : Nat} {x y : Instruction}
  {w w' : MemoryMap} {a : Int}

/-- A position behind the last element is outside. -/
theorem elementAt?_of_length_le {α : Type} {xs : List α} {k : Int} (h : xs.length ≤ k) :
    elementAt? xs k = none := by
  have hk : signedIndex? xs.length k = none := by
    unfold signedIndex?
    rw [if_neg (by omega : ¬ k < 0)]
    exact if_neg (by omega)
  rw [elementAt?, hk, Option.bind_none]

theorem elementAt?_map {α β : Type} (f : α → β) (xs : List α) (k : Int) :
    elementAt? (xs.map f) k = (elementAt? xs k).map f := by
  unfold elementAt?
  rw [List.length_map]
  cases signedIndex? xs.length k with
  | none => rfl
  | some i => exact List.getElem?_map ..

theorem mem_of_elementAt? {α : Type} {xs : List α} {k : Int} {a : α}
    (h : elementAt? xs k = some a) : a ∈ xs := by
  obtain ⟨i, -, hi⟩ := Option.bind_eq_some_iff.1 h
  exact List.mem_of_getElem? hi

theorem Module.externalAddress_eq_ok :
    m.externalAddress t i x = .ok a ↔
      ((elementAt? m.uses x.address).bind fun u => t.addressOf u.name) = some a := by
  unfold Module.externalAddress elementAt SymbolTable.addressOf
  split
  · next h => rw [elementAt?_of_length_le h]; exact iff_of_false (fun h => by cases h) nofun
  · cases elementAt? m.uses x.address with
    | none => exact iff_of_false (fun h => by cases h) nofun
    | some u =>
      rw [Option.bind_some]
      cases h : t.lookup u.name with
      | none => simp only [h, Option.map_none, reduceCtorEq]
      | some e => simp only [h, Option.map_some, Except.ok.injEq, Option.some.injEq]

/-- An instruction gets the same address where the name it refers to stands for the same. -/
theorem Module.finalAddress?_congr {f g : String → Option Int}
    (h : x.classification = .external →
      ∀ u, elementAt? m.uses x.address = some u → f u.name = g u.name) :
    m.finalAddress? f x = m.finalAddress? g x := by
  unfold Module.finalAddress?
  cases hk : x.classification with
  | immediate => rfl
  | absolute => rfl
  | relative => rfl
  | external =>
    cases hu : elementAt? m.uses x.address with
    | none => rfl
    | some u => exact h hk u hu

theorem relocate_eq_ok : x.relocate a = .ok y ↔
    x.relocated = false ∧ { x with address := a, relocated := true } = y := by
  unfold Instruction.relocate
  cases x.relocated with
  | true => exact iff_of_false (fun h => by cases h) nofun
  | false => simp only [Bool.false_eq_true, if_false, Except.ok.injEq, true_and]

/-- An instruction that keeps its address is the same afterwards. -/
theorem Instruction.linkedAt_address (h : x.classification.isRelocatable = false) :
    x.linkedAt x.address = x := by
  rw [linkedAt, h, Bool.or_false]

/-- Relocating gives the instruction its final address. -/
theorem Module.relocated_eq_ok :
    m.relocated t i x = .ok y ↔ ∃ a, m.finalAddress? t.addressOf x = some a ∧
      (x.classification.isRelocatable = true → x.relocated = false) ∧ x.linkedAt a = y := by
  have hkeep (h : x.classification.isRelocatable = false) :
      (Except.ok x : Except Failure Instruction) = .ok y ↔ ∃ a, some x.address = some a ∧
        (x.classification.isRelocatable = true → x.relocated = false) ∧ x.linkedAt a = y := by
    simp only [Except.ok.injEq, Option.some.injEq, exists_eq_left', h, Bool.false_eq_true,
      false_implies, true_and, Instruction.linkedAt_address h]
  have hmove (h : x.classification.isRelocatable = true) (a : Int) :
      x.relocate a = .ok y ↔
        (x.classification.isRelocatable = true → x.relocated = false) ∧ x.linkedAt a = y := by
    simp only [relocate_eq_ok, Instruction.linkedAt, h, Bool.or_true, true_implies]
  unfold Module.relocated Module.finalAddress?
  cases hx : x.classification with
  | immediate => rw [hx] at hkeep; exact hkeep rfl
  | absolute => rw [hx] at hkeep; exact hkeep rfl
  | relative =>
    rw [hx] at hmove
    simp only [hmove rfl, Option.some.injEq, exists_eq_left']
  | external =>
    rw [hx] at hmove
    simp only [bind_eq_ok, Module.externalAddress_eq_ok, hmove rfl]

theorem Module.linkInstruction_eq_ok :
    (m.linkInstruction settings t i w x).result = .ok w' ↔
      m.Links settings t.addressOf x ∧ w.append (m.linkedInstruction t.addressOf x).word = w' := by
  unfold Module.linkInstruction Module.Links Module.linkedInstruction
  cases hr : m.relocated t i x with
  | error e =>
    refine iff_of_false (fun h => by cases h) ?_
    rintro ⟨⟨a, ha, -, hx⟩, -⟩
    rw [Module.relocated_eq_ok.2 ⟨a, ha, hx, rfl⟩] at hr
    cases hr
  | ok y =>
    obtain ⟨a, ha, hx, rfl⟩ := Module.relocated_eq_ok.1 hr
    simp only [ha, Option.some.injEq, exists_eq_left', Option.getD_some]
    split
    · next h => exact iff_of_false (fun h => by cases h) (fun h' => Int.not_le.2 h h'.1.1)
    · next h =>
      have hle : a ≤ settings.maxAddress := Int.not_lt.1 h
      rw [Except.ok.injEq]
      constructor
      · intro hw
        exact ⟨⟨hle, hx⟩, hw⟩
      · rintro ⟨-, hw⟩
        exact hw

/-- An instruction that links has its final address afterwards. -/
theorem Module.reached_linkInstruction (h : (m.linkInstruction settings t i w x).result = .ok w') :
    (m.linkInstruction settings t i w x).reached = m.linkedInstruction t.addressOf x := by
  obtain ⟨⟨a, ha, -, hx⟩, -⟩ := Module.linkInstruction_eq_ok.1 h
  rw [Module.linkInstruction, Module.relocated_eq_ok.2 ⟨a, ha, hx, rfl⟩, Module.linkedInstruction,
    ha]
  rfl

end

/-! ### All instructions -/

section

variable {settings : Settings} {s : Store} {t : SymbolTable} {m : Module} {w w' : MemoryMap}

theorem MemoryMap.foldl_append {α : Type} (f : α → Int) (xs : List α) (w : MemoryMap) :
    xs.foldl (fun w x => w.append (f x)) w = ⟨w.words ++ xs.map f⟩ := by
  rw [← foldl_concat]
  exact List.foldl_hom MemoryMap.mk fun _ _ => rfl

theorem Module.linkInstructions_eq_ok :
    (m.linkInstructions settings t w).result = .ok w' ↔
      (∀ x ∈ m.instructions, m.Links settings t.addressOf x) ∧
        ⟨w.words ++ (m.linked t.addressOf).instructions.map Instruction.word⟩ = w' := by
  have hx (i : Nat) (w : MemoryMap) (x : Instruction) (w' : MemoryMap) :
      (m.linkInstruction settings t i w x).result = .ok w' ↔ _ := Module.linkInstruction_eq_ok
  show (sweep (m.linkInstruction settings t) 0 w m.instructions).result = .ok w' ↔ _
  rw [sweep_eq_ok hx, MemoryMap.foldl_append, Module.linked, List.map_map]
  rfl

/-- A sweep over instructions that succeeds has relocated each of them. -/
theorem Module.reached_sweep_linkInstruction {i : Nat} {xs : List Instruction}
    (h : (sweep (m.linkInstruction settings t) i w xs).result = .ok w') :
    (sweep (m.linkInstruction settings t) i w xs).reached =
      xs.map (m.linkedInstruction t.addressOf) :=
  reached_sweep (fun _ _ _ _ hx => Module.reached_linkInstruction hx) h

theorem Module.reached_linkInstructions (h : (m.linkInstructions settings t w).result = .ok w') :
    (m.linkInstructions settings t w).reached = m.linked t.addressOf :=
  congrArg (fun xs => { m with instructions := xs }) (reached_sweep_linkInstruction h)

/-- **The second pass succeeds** when every instruction has a final address that is one of the
machine; it gives the words of the linked program. -/
theorem secondPass_eq_ok (ht : t.frozen = true) :
    (secondPass settings s t).result = .ok w ↔
      (∀ m ∈ s.modules, ∀ x ∈ m.instructions, m.Links settings t.addressOf x) ∧
        ⟨(s.linked t.addressOf).words⟩ = w := by
  have hw (ms : List Module) (w : MemoryMap) :
      ms.foldl
          (fun w m => ⟨w.words ++ (m.linked t.addressOf).instructions.map Instruction.word⟩) w =
        ⟨w.words ++ (Store.linked t.addressOf ⟨ms⟩).words⟩ := by
    induction ms generalizing w with
    | nil => exact congrArg MemoryMap.mk (List.append_nil _).symm
    | cons m ms ih =>
      rw [List.foldl_cons, ih]
      simp only [Store.linked, Store.words, Store.instructions, List.map_cons, List.flatMap_cons,
        List.map_append, List.append_assoc]
  have hm (_ : Nat) (w : MemoryMap) (m : Module) (w' : MemoryMap) :
      (m.linkInstructions settings t w).result = .ok w' ↔ _ := Module.linkInstructions_eq_ok
  rw [secondPass, SymbolTable.requireFrozen, ht]
  show (sweep (fun _ => Module.linkInstructions settings t) 0 .empty s.modules).result = .ok w ↔ _
  rw [sweep_eq_ok hm, hw]
  rfl

/-- A second pass that succeeds has relocated every instruction. -/
theorem reached_secondPass (h : (secondPass settings s t).result = .ok w) :
    (secondPass settings s t).reached = s.linked t.addressOf := by
  unfold secondPass at h ⊢
  split at h
  · cases h
  · exact congrArg Store.mk (reached_sweep (fun _ _ _ _ hm => Module.reached_linkInstructions hm) h)

end

end Linkage
