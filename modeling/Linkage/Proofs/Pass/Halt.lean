import Linkage.Proofs.Pass.Faults
import Mathlib.Data.List.Forall2

/-!
# Second pass — the program that a failure leaves

The second pass changes instructions where they stand.  One that fails stops at an instruction and
leaves the program relocated up to there.

* `Module.Relocates` is what a visit that succeeds makes of an instruction, read off the module and
  the table, and `Module.RelocatedBy` is the same for a module with all its instructions.
* `Instruction.haltedBy` is what the visit that fails makes of its instruction: an address is checked
  against the machine after it has been written, a symbol is looked up before.
* `secondPass_eq_error` splits the program at the instruction, for any program and any frozen table.

**What a failure leaves** (`secondPass_leaves`): behind the first pass, the instructions before the
one at fault are relocated and none behind it is.  A visit gives back an instruction and takes the
table as it is, so nothing else of the program changes, and the table does not.
-/

namespace Linkage

variable {settings : Settings} {s : Store} {t : SymbolTable} {m : Module} {x y : Instruction}
  {w : MemoryMap} {i : Nat} {f : Failure}

/-! ### Relocated instructions -/

/-- The second instruction is what relocating makes of the first, in the module `m`. -/
inductive Module.Relocates (t : SymbolTable) (m : Module) : Instruction → Instruction → Prop where
  | kept {x : Instruction} (fixed : x.classification.isRelocatable = false) : m.Relocates t x x
  | relative {x : Instruction} (relative : x.classification = .relative) :
      m.Relocates t x { x with address := x.address + m.start, relocated := true }
  | external {x : Instruction} {k : Nat} {u : Use} {e : Entry}
      (external : x.classification = .external) (position : x.address = k)
      (use : m.uses[k]? = some u) (entry : t.lookup u.name = some e) :
      m.Relocates t x { x with address := e.address, relocated := true }

/-- The second module is the first with all its instructions relocated. -/
def Module.RelocatedBy (t : SymbolTable) (m m' : Module) : Prop :=
  ∃ ys, List.Forall₂ (m.Relocates t) m.instructions ys ∧ m' = { m with instructions := ys }

/-- What an instruction is when its visit has failed: it has the address that was found to be beyond
the machine, and is as it was behind any other failure. -/
def Instruction.haltedBy (f : Failure) (x : Instruction) : Instruction :=
  match f with
  | .link ⟨.addressOutOfRange a _ _, _, _⟩ => { x with address := a, relocated := true }
  | _                                      => x

/-- An instruction that links is relocated, where its address is a number. -/
theorem Module.Links.relocates (h : m.Links settings t.addressOf x) {k : Nat} (hk : x.address = k) :
    m.Relocates t x (m.linkedInstruction t.addressOf x) := by
  obtain ⟨a, ha, -, -⟩ := h
  have hy : m.linkedInstruction t.addressOf x = x.linkedAt a := by
    rw [Module.linkedInstruction, ha, Option.getD_some]
  have hmoved (h : x.classification.isRelocatable = true) :
      x.linkedAt a = { x with address := a, relocated := true } := by
    rw [Instruction.linkedAt, h, Bool.or_true]
  have hkept (h : x.classification.isRelocatable = false) (ha : some x.address = some a) :
      m.Relocates t x (x.linkedAt a) := by
    cases ha
    rw [Instruction.linkedAt_address h]
    exact .kept h
  rw [hy]
  unfold Module.finalAddress? at ha
  cases hc : x.classification with
  | immediate =>
    rw [hc] at ha hkept
    exact hkept rfl ha
  | absolute =>
    rw [hc] at ha hkept
    exact hkept rfl ha
  | relative =>
    rw [hc] at ha
    cases ha
    rw [hmoved (by rw [hc]; rfl)]
    exact .relative hc
  | external =>
    rw [hc] at ha
    obtain ⟨u, hu, hl⟩ := Option.bind_eq_some_iff.1 ha
    obtain ⟨e, he, rfl⟩ := Option.map_eq_some_iff.1 hl
    rw [hk, elementAt?_natCast] at hu
    rw [hmoved (by rw [hc]; rfl)]
    exact .external hc hk hu he

/-- Instructions that link are relocated one by one. -/
theorem Module.forall₂_relocates {xs : List Instruction}
    (hl : ∀ x ∈ xs, m.Links settings t.addressOf x) (ha : ∀ x ∈ xs, ∃ k : Nat, x.address = k) :
    List.Forall₂ (m.Relocates t) xs (xs.map (m.linkedInstruction t.addressOf)) := by
  rw [List.forall₂_map_right_iff, List.forall₂_same]
  intro x hx
  obtain ⟨k, hk⟩ := ha x hx
  exact (hl x hx).relocates hk

/-! ### The instruction at fault -/

theorem InstructionFault.isRelocatable (h : InstructionFault settings s t (m, x, i) f) :
    x.classification.isRelocatable = true := by
  cases h with
  | noUse hc _ => rw [hc]; rfl
  | undefined hc _ _ _ => rw [hc]; rfl
  | beyond hc _ => rw [hc]; rfl

/-- The addresses of definitions are not looked at. -/
theorem InstructionFault.located (h : InstructionFault settings s t (m, x, i) f) :
    InstructionFault settings s t (m.located, x, i) f := by
  cases h with
  | noUse external outside => exact .noUse (m := m.located) external outside
  | undefined external position use undefined =>
    exact .undefined (m := m.located) external position use undefined
  | beyond relative beyond => exact .beyond (m := m.located) relative beyond

/-- The visit that finds a fault has made of the instruction what the failure says. -/
theorem InstructionFault.reached_eq (h : InstructionFault settings s t (m, x, i) f)
    (hr : x.relocated = false) (hf : linkSite settings t w (m, x, i) = .error f) :
    (m.linkInstruction settings t i w x).reached = x.haltedBy f := by
  cases hrel : m.relocated t i x with
  | error f' =>
    rw [linkSite_of_error hrel] at hf
    cases hf
    rw [Module.linkInstruction, hrel]
    cases h with
    | noUse _ _ => rfl
    | undefined _ _ _ _ => rfl
    | beyond hc _ =>
      -- an address that is not looked up can be written
      have hok : m.relocated t i x = x.relocate (x.address + m.start) := by
        rw [Module.relocated, hc]
      cases hrel.symm.trans (hok.trans (relocate_eq_ok.2 ⟨hr, rfl⟩))
  | ok y =>
    obtain ⟨a, -, -, rfl⟩ := Module.relocated_eq_ok.1 hrel
    rw [linkSite_of_ok hrel] at hf
    rw [Module.linkInstruction, hrel]
    split at hf
    · have hy : x.linkedAt a = { x with address := a, relocated := true } := by
        rw [Instruction.linkedAt, h.isRelocatable, Bool.or_true]
      obtain rfl := Except.error.inj hf
      exact hy
    · cases hf

/-! ### Where the pass stops -/

theorem Module.linkInstructions_eq_error (h : (m.linkInstructions settings t w).result = .error f) :
    ∃ xs x xs' w', m.instructions = xs ++ x :: xs' ∧
      (∀ y ∈ xs, m.Links settings t.addressOf y) ∧
        linkSite settings t w' (m, x, xs.length) = .error f ∧
          (m.linkInstructions settings t w).reached =
            { m with instructions := xs.map (m.linkedInstruction t.addressOf) ++
                (m.linkInstruction settings t xs.length w' x).reached :: xs' } := by
  have hlinks (i : Nat) (w : MemoryMap) (x : Instruction) (w' : MemoryMap) :
      (m.linkInstruction settings t i w x).result = .ok w' ↔ _ := Module.linkInstruction_eq_ok
  obtain ⟨xs, x, xs', w', hsplit, hbefore, hx, hreached⟩ := sweep_eq_error h
  rw [Nat.zero_add] at hx hreached
  rw [Module.reached_sweep_linkInstruction hbefore] at hreached
  exact ⟨xs, x, xs', w', hsplit, ((sweep_eq_ok hlinks).1 hbefore).1, hx,
    congrArg (fun xs => { m with instructions := xs }) hreached⟩

/-- A second pass that fails has linked the instructions before the one whose visit fails, and leaves
those behind it as they are. -/
theorem secondPass_eq_error (ht : t.frozen = true) (h : (secondPass settings s t).result = .error f) :
    ∃ ms m ms' xs x xs' w, s.modules = ms ++ m :: ms' ∧ m.instructions = xs ++ x :: xs' ∧
      (∀ n ∈ ms, ∀ y ∈ n.instructions, n.Links settings t.addressOf y) ∧
        (∀ y ∈ xs, m.Links settings t.addressOf y) ∧
          linkSite settings t w (m, x, xs.length) = .error f ∧
            (secondPass settings s t).reached.modules = ms.map (Module.linked t.addressOf) ++
              { m with instructions := xs.map (m.linkedInstruction t.addressOf) ++
                  (m.linkInstruction settings t xs.length w x).reached :: xs' } :: ms' := by
  have hlinks (_ : Nat) (w : MemoryMap) (m : Module) (w' : MemoryMap) :
      (m.linkInstructions settings t w).result = .ok w' ↔ _ := Module.linkInstructions_eq_ok
  rw [secondPass, SymbolTable.requireFrozen, ht] at h ⊢
  obtain ⟨ms, m, ms', w, hsplit, hbefore, hm, hreached⟩ := sweep_eq_error h
  obtain ⟨xs, x, xs', w', hxs, hxlinks, hx, hm'⟩ := Module.linkInstructions_eq_error hm
  have hlinked : (sweep (fun _ => Module.linkInstructions settings t) 0 .empty ms).reached =
      ms.map (Module.linked t.addressOf) :=
    reached_sweep (fun _ _ _ _ hn => Module.reached_linkInstructions hn) hbefore
  rw [hlinked, hm'] at hreached
  exact ⟨ms, m, ms', xs, x, xs', w', hsplit, hxs, ((sweep_eq_ok hlinks).1 hbefore).1, hxlinks, hx,
    hreached⟩

/-! ### Behind the first pass -/

/-- **What a failure leaves.**  The second pass over a program that has been read and has its
addresses stops at an instruction with a fault.  Nothing was relocated when it started; of what it
leaves, the instructions before that one are relocated, the one at fault is as its failure says, and
the rest of the program is as it was. -/
theorem secondPass_leaves {tokens : List Token} (hv : settings.IsValid)
    (hs : Store.parse settings tokens = .ok s) (ht : (firstPass settings s).result = .ok t)
    (hf : (secondPass settings (firstPass settings s).reached t).result = .error f) :
    (∀ m ∈ (firstPass settings s).reached.modules, ∀ x ∈ m.instructions, x.relocated = false) ∧
      ∃ ms m ms' xs x xs', (firstPass settings s).reached.modules = ms ++ m :: ms' ∧
        m.index = ms.length ∧ m.instructions = xs ++ x :: xs' ∧
          InstructionFault settings s t (m, x, xs.length) f ∧
            ∃ ns ys, List.Forall₂ (Module.RelocatedBy t) ms ns ∧
              List.Forall₂ (m.Relocates t) xs ys ∧
                (secondPass settings (firstPass settings s).reached t).reached.modules =
                  ns ++ { m with instructions := ys ++ x.haltedBy f :: xs' } :: ms' := by
  have hread := Store.asRead_of_parse hs
  have hfrozen : t.frozen = true := by
    obtain ⟨-, -, rfl⟩ := (firstPass_eq_ok hv.1).1 ht
    rfl
  rw [reached_firstPass ht] at hf ⊢
  -- the modules have their addresses, and the instructions that have been read
  have hinstructions {m : Module} {x : Instruction} (hm : m ∈ s.located.modules)
      (hx : x ∈ m.instructions) : x.relocated = false ∧ ∃ k : Nat, x.address = k := by
    obtain ⟨m₀, hm₀, rfl⟩ := List.mem_map.1 hm
    obtain ⟨k, hk, -⟩ := hread.address m₀ hm₀ x hx
    exact ⟨hread.relocated m₀ hm₀ x hx, k, hk⟩
  obtain ⟨ms, m, ms', xs, x, xs', w, hsplit, hxs, hmlinks, hxlinks, hx, hreached⟩ :=
    secondPass_eq_error hfrozen hf
  have hm : s.located.modules[ms.length]? = some m := by
    rw [hsplit, List.getElem?_append_right (Nat.le_refl _), Nat.sub_self, List.getElem?_cons_zero]
  have hxm : x ∈ m.instructions := by rw [hxs]; exact List.mem_append_cons_self
  have hrelocated := (hinstructions (List.mem_of_getElem? hm) hxm).1
  obtain ⟨m₀, hm₀, rfl⟩ := Option.map_eq_some_iff.1 ((List.getElem?_map ..).symm.trans hm)
  have hfault : InstructionFault settings s t (m₀.located, x, xs.length) f :=
    ((linkSite_eq_error_of_firstPass hv.1 hread ht (List.mem_of_getElem? hm₀) hxm).1 hx).located
  rw [hfault.reached_eq hrelocated hx] at hreached
  refine ⟨fun m hm x hx => (hinstructions hm hx).1, ms, m₀.located, ms', xs, x, xs', hsplit,
    ((Store.laidOut_of_parse hs) _ _ hm₀).1, hxs, hfault, _, _, ?_, ?_, hreached⟩
  · rw [List.forall₂_map_right_iff, List.forall₂_same]
    intro n hn
    have hmem : n ∈ s.located.modules := by rw [hsplit]; exact List.mem_append_left _ hn
    exact ⟨_, Module.forall₂_relocates (hmlinks n hn) fun y hy => (hinstructions hmem hy).2, rfl⟩
  · refine Module.forall₂_relocates hxlinks fun y hy => ?_
    have hmem : y ∈ m₀.located.instructions := by rw [hxs]; exact List.mem_append_left _ hy
    exact (hinstructions (List.mem_of_getElem? hm) hmem).2

/-- Two modules, the second of which ends with an address beyond the machine. -/
def lateFault : List Token :=
  Token.inLine
    ["0", "1", "z", "2", "R", "1001", "E", "2000", "1", "z", "0", "0", "3", "R", "4005", "R", "5999",
      "R", "6000"]

theorem secondPass_leaves_lateFault :
    ∃ s t f, Settings.IsValid {} ∧ Store.parse {} lateFault = .ok s ∧
      (firstPass {} s).result = .ok t ∧
        (secondPass {} (firstPass {} s).reached t).result = .error f ∧
          (secondPass {} (firstPass {} s).reached t).reached.modules.map
            (fun m => m.instructions.map fun x => (x.address, x.relocated)) =
              [[(1, true), (2, true)], [(7, true), (1001, true), (0, false)]] ∧
            ∃ ms m xs x, m.index = ms.length ∧ InstructionFault {} s t (m, x, xs.length) f ∧
              ∃ ns ys, List.Forall₂ (Module.RelocatedBy t) ms ns ∧
                List.Forall₂ (m.Relocates t) xs ys := by
  have hv : Settings.IsValid {} := by decide
  have hs : Store.parse {} lateFault = .ok _ := rfl
  obtain ⟨-, ms, m, -, xs, x, -, -, hindex, -, hfault, ns, ys, hns, hys, -⟩ :=
    secondPass_leaves (t := _) (f := _) hv hs rfl rfl
  exact ⟨_, _, _, hv, hs, rfl, rfl, rfl, ms, m, xs, x, hindex, hfault, ns, ys, hns, hys⟩

end Linkage
