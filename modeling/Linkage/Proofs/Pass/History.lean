import Linkage.Proofs.Contiguity
import Linkage.Proofs.Link
import Mathlib.Data.List.Forall2

/-!
# Passes — a program under any sequence of calls

The passes work on one program and may stop anywhere, so a program can be in any state between read
and linked when the next call comes.  `Store.afterAll` is the program after some calls, those that
failed included.

A visit does nothing to an instruction, or gives a relocatable one that has not been relocated its
one other address (`Instruction.Becomes`).  This is transitive, so a history does no more than one
visit (`becomes_afterAll`), and **an instruction is relocated at most once**.  A second pass that
succeeds leaves nothing to relocate (`Store.Settled`); a later one finds the program as it is, and
refuses it at the first relocatable instruction (`Settled.secondPass_eq_ok`).
-/

namespace Linkage

/-! ### Calls -/

/-- A call on a program. -/
inductive Store.Call where
  | firstPass (settings : Settings)
  | secondPass (settings : Settings) (table : SymbolTable)
  | collectWarnings (settings : Settings)

namespace Store

/-- The program as a call leaves it, also where the call fails. -/
def after (s : Store) : Call → Store
  | .firstPass settings        => (Linkage.firstPass settings s).reached
  | .secondPass settings table => (Linkage.secondPass settings s table).reached
  | .collectWarnings _         => s

/-- The program as some calls leave it, made one after another. -/
def afterAll (s : Store) (calls : List Call) : Store := calls.foldl after s

/-- The instruction at position `j` of module `i`. -/
def instruction? (s : Store) (i j : Nat) : Option Instruction :=
  s.modules[i]?.bind (·.instructions[j]?)

variable {s : Store}

theorem afterAll_append (s : Store) (calls more : List Call) :
    s.afterAll (calls ++ more) = (s.afterAll calls).afterAll more :=
  List.foldl_append

/-- What every call keeps, a history keeps. -/
theorem afterAll_induction {P : Store → Prop} (hP : ∀ s c, P s → P (s.after c)) (h : P s)
    (calls : List Call) : P (s.afterAll calls) := by
  induction calls generalizing s with
  | nil => exact h
  | cons c calls ih => exact ih (hP s c h)

end Store

/-! ### One visit of an instruction -/

section

variable {x y z : Instruction} {m : Module} {settings : Settings} {t : SymbolTable} {i : Nat}
  {a : Int}

/-- What visits make of an instruction: nothing, or the one replacement of its address. -/
inductive Instruction.Becomes (x : Instruction) : Instruction → Prop where
  | same : x.Becomes x
  | relocated (address : Int) (relocatable : x.classification.isRelocatable = true)
      (first : x.relocated = false) :
      x.Becomes { x with address := address, relocated := true }

/-- After the replacement there is no other one. -/
theorem Instruction.Becomes.trans (h : x.Becomes y) (h' : y.Becomes z) : x.Becomes z := by
  cases h with
  | same => exact h'
  | relocated a relocatable first =>
    cases h' with
    | same => exact .relocated a relocatable first
    | relocated _ _ again => cases again

/-- An instruction that has been relocated, or never is, stays as it is. -/
theorem Instruction.Becomes.eq_of_settled (h : x.Becomes y)
    (hx : x.classification.isRelocatable = true → x.relocated = true) : y = x := by
  cases h with
  | same => rfl
  | relocated a relocatable first => cases first.symm.trans (hx relocatable)

theorem Instruction.becomes_of_relocate (hx : x.classification.isRelocatable = true)
    (h : x.relocate a = .ok y) : x.Becomes y := by
  obtain ⟨hr, rfl⟩ := relocate_eq_ok.1 h
  exact .relocated a hx hr

theorem Module.becomes_of_relocated (h : m.relocated t i x = .ok y) : x.Becomes y := by
  unfold Module.relocated at h
  cases hx : x.classification with
  | immediate => rw [hx] at h; cases h; exact .same
  | absolute => rw [hx] at h; cases h; exact .same
  | relative => rw [hx] at h; exact Instruction.becomes_of_relocate (by rw [hx]; rfl) h
  | external =>
    rw [hx] at h
    obtain ⟨a, -, h⟩ := bind_eq_ok.1 h
    exact Instruction.becomes_of_relocate (by rw [hx]; rfl) h

/-- A visit of the second pass, also one that finds the new address beyond the machine. -/
theorem Module.becomes_linkInstruction (settings : Settings) (t : SymbolTable) (m : Module)
    (i : Nat) (w : MemoryMap) (x : Instruction) :
    x.Becomes (m.linkInstruction settings t i w x).reached := by
  unfold Module.linkInstruction
  cases h : m.relocated t i x with
  | error e => exact .same
  | ok y => exact Module.becomes_of_relocated h

/-- An instruction that is not relocated gets its own address. -/
theorem Module.finalAddress?_of_not_isRelocatable (f : String → Option Int) (m : Module)
    (h : x.classification.isRelocatable = false) : m.finalAddress? f x = some x.address := by
  unfold Module.finalAddress?
  cases hx : x.classification with
  | immediate => rfl
  | absolute => rfl
  | relative => rw [hx] at h; cases h
  | external => rw [hx] at h; cases h

/-- An instruction that has been relocated does not link again, and one that never is links with its
own address. -/
theorem Module.links_iff_of_settled {f : String → Option Int}
    (hx : x.classification.isRelocatable = true → x.relocated = true) :
    m.Links settings f x ↔
      x.classification.isRelocatable = false ∧ x.address ≤ settings.maxAddress := by
  unfold Module.Links
  cases hrel : x.classification.isRelocatable with
  | true =>
    refine iff_of_false (fun ⟨_, _, _, first⟩ => ?_) nofun
    cases (first rfl).symm.trans (hx hrel)
  | false =>
    simp only [m.finalAddress?_of_not_isRelocatable f hrel, Option.some.injEq, exists_eq_left',
      Bool.false_eq_true, false_implies, and_true, true_and]

end

/-! ### Sweeps, and programs part by part -/

/-- A sweep makes of each part what a visit makes of it, or nothing. -/
theorem forall₂_reached_sweep {σ α : Type} {R : σ → σ → Prop} {visit : Nat → α → σ → Outcome σ α}
    (hrefl : ∀ x, R x x) (h : ∀ i a x, R x (visit i a x).reached) (i : Nat) (a : α) (xs : List σ) :
    List.Forall₂ R xs (sweep visit i a xs).reached := by
  induction xs generalizing i a with
  | nil => exact .nil
  | cons x xs ih =>
    cases hx : (visit i a x).result with
    | error e =>
      rw [sweep_cons_error hx]
      exact .cons (h i a x) (List.forall₂_same.2 fun y _ => hrefl y)
    | ok b =>
      rw [sweep_cons_ok hx]
      exact .cons (h i a x) (ih (i + 1) b)

theorem forall₂_trans {α : Type} {R : α → α → Prop} (hR : ∀ x y z, R x y → R y z → R x z)
    {xs ys zs : List α} (h : List.Forall₂ R xs ys) (h' : List.Forall₂ R ys zs) :
    List.Forall₂ R xs zs := by
  induction h generalizing zs with
  | nil => exact h'
  | cons hxy _ ih =>
    cases h' with
    | cons hyz h' => exact .cons (hR _ _ _ hxy hyz) (ih h')

theorem exists_getElem?_of_forall₂ {α β : Type} {R : α → β → Prop} {xs : List α} {ys : List β}
    (h : List.Forall₂ R xs ys) {k : Nat} {x : α} (hx : xs[k]? = some x) :
    ∃ y, ys[k]? = some y ∧ R x y := by
  induction h generalizing k with
  | nil => cases hx
  | cons hxy _ ih =>
    cases k with
    | zero => cases hx; exact ⟨_, rfl, hxy⟩
    | succ k => exact ih hx

theorem eq_of_forall₂ {α : Type} {R : α → α → Prop} {xs ys : List α} (h : List.Forall₂ R xs ys)
    (hR : ∀ x ∈ xs, ∀ y, R x y → y = x) : ys = xs := by
  induction h with
  | nil => rfl
  | cons hxy _ ih =>
    obtain ⟨hx, hxs⟩ := List.forall_mem_cons.1 hR
    rw [hx _ hxy, ih hxs]

/-- A sweep whose visits change nothing changes nothing. -/
theorem reached_sweep_eq_self {σ α : Type} {visit : Nat → α → σ → Outcome σ α} {xs : List σ}
    (h : ∀ i a, ∀ x ∈ xs, (visit i a x).reached = x) (i : Nat) (a : α) :
    (sweep visit i a xs).reached = xs := by
  induction xs generalizing i a with
  | nil => rfl
  | cons x xs ih =>
    have hx : (visit i a x).reached = x := h i a x List.mem_cons_self
    cases hr : (visit i a x).result with
    | error e => rw [sweep_cons_error hr, hx]
    | ok b => rw [sweep_cons_ok hr, hx, ih fun i a y hy => h i a y (List.mem_cons_of_mem x hy)]

/-- What visits make of the instructions of a module. -/
def Module.Becomes (m m' : Module) : Prop :=
  List.Forall₂ Instruction.Becomes m.instructions m'.instructions

theorem Module.Becomes.refl (m : Module) : m.Becomes m := List.forall₂_same.2 fun _ _ => .same

theorem Module.Becomes.trans {m m' m'' : Module} (h : m.Becomes m') (h' : m'.Becomes m'') :
    m.Becomes m'' :=
  forall₂_trans (fun _ _ _ hx hx' => hx.trans hx') h h'

theorem Module.becomes_linkInstructions (settings : Settings) (t : SymbolTable) (w : MemoryMap)
    (m : Module) : m.Becomes (m.linkInstructions settings t w).reached :=
  forall₂_reached_sweep (fun _ => .same) (m.becomes_linkInstruction settings t) 0 w m.instructions

namespace Store

variable {s s' s'' : Store} {settings : Settings} {t : SymbolTable} {w : MemoryMap} {i j : Nat}
  {x : Instruction}

/-- What visits make of the instructions of a program. -/
def Becomes (s s' : Store) : Prop := List.Forall₂ Module.Becomes s.modules s'.modules

theorem Becomes.refl (s : Store) : s.Becomes s := List.forall₂_same.2 fun m _ => .refl m

theorem Becomes.trans (h : s.Becomes s') (h' : s'.Becomes s'') : s.Becomes s'' :=
  forall₂_trans (fun _ _ _ hm hm' => hm.trans hm') h h'

theorem Becomes.instructions (h : s.Becomes s') :
    List.Forall₂ Instruction.Becomes s.instructions s'.instructions :=
  List.rel_flatMap h fun _ _ hm => hm

theorem Becomes.instruction? (h : s.Becomes s') (hx : s.instruction? i j = some x) :
    ∃ x', s'.instruction? i j = some x' ∧ x.Becomes x' := by
  obtain ⟨m, hm, hxm⟩ := Option.bind_eq_some_iff.1 hx
  obtain ⟨m', hm', hmm'⟩ := exists_getElem?_of_forall₂ h hm
  obtain ⟨x', hx', hxx'⟩ := exists_getElem?_of_forall₂ hmm' hxm
  exact ⟨x', Option.bind_eq_some_iff.2 ⟨m', hm', hx'⟩, hxx'⟩

/-- **A call visits each instruction once, or not at all.** -/
theorem becomes_after (s : Store) (c : Call) : s.Becomes (s.after c) := by
  cases c with
  | firstPass settings =>
    have h (_ : Nat) (t : SymbolTable) (m : Module) :
        m.Becomes (m.enterDefinitions settings t).reached := Module.Becomes.refl m
    exact forall₂_reached_sweep Module.Becomes.refl h 0 _ s.modules
  | secondPass settings t =>
    show s.Becomes (Linkage.secondPass settings s t).reached
    unfold Linkage.secondPass
    cases t.requireFrozen with
    | error e => exact .refl s
    | ok _ =>
      have h (_ : Nat) (w : MemoryMap) (m : Module) := m.becomes_linkInstructions settings t w
      exact forall₂_reached_sweep Module.Becomes.refl h 0 _ s.modules
  | collectWarnings settings => exact .refl s

/-- **A history does no more to an instruction than one visit.** -/
theorem becomes_afterAll (s : Store) (calls : List Call) : s.Becomes (s.afterAll calls) :=
  afterAll_induction (fun s' c h => h.trans (s'.becomes_after c)) (.refl s) calls

/-! ### Programs with nothing left to relocate -/

/-- Every relocatable instruction of the program has been relocated. -/
def Settled (s : Store) : Prop :=
  ∀ x ∈ s.instructions, x.classification.isRelocatable = true → x.relocated = true

/-- A second pass that succeeds leaves nothing to relocate. -/
theorem settled_reached_secondPass (h : (Linkage.secondPass settings s t).result = .ok w) :
    (Linkage.secondPass settings s t).reached.Settled := by
  rw [reached_secondPass h]
  intro y hy hrel
  obtain ⟨m', hm', hy⟩ := List.mem_flatMap.1 hy
  obtain ⟨m, -, rfl⟩ := List.mem_map.1 hm'
  obtain ⟨x, -, rfl⟩ := List.mem_map.1 hy
  have hx : x.classification.isRelocatable = true := hrel
  show (x.relocated || x.classification.isRelocatable) = true
  rw [hx, Bool.or_true]

/-- No call changes an instruction any more. -/
theorem Settled.instructions_eq (hs : s.Settled) (h : s.Becomes s') :
    s'.instructions = s.instructions :=
  eq_of_forall₂ h.instructions fun x hx _ hxy => hxy.eq_of_settled (hs x hx)

theorem Settled.becomes (hs : s.Settled) (h : s.Becomes s') : s'.Settled := by
  unfold Settled
  rw [hs.instructions_eq h]
  exact hs

/-- A second pass finds the program as it is, and leaves it so. -/
theorem Settled.reached_secondPass (hs : s.Settled) (settings : Settings) (t : SymbolTable) :
    (Linkage.secondPass settings s t).reached = s := by
  have hx {m : Module} (hm : m ∈ s.modules) (i : Nat) (w : MemoryMap) :
      ∀ x ∈ m.instructions, (m.linkInstruction settings t i w x).reached = x := fun x hxm =>
    (m.becomes_linkInstruction settings t i w x).eq_of_settled
      (hs x (List.mem_flatMap.2 ⟨m, hm, hxm⟩))
  unfold Linkage.secondPass
  cases t.requireFrozen with
  | error e => rfl
  | ok _ =>
    refine congrArg Store.mk (reached_sweep_eq_self (fun _ w m hm => ?_) 0 _)
    exact congrArg (fun xs => { m with instructions := xs }) (reached_sweep_eq_self (hx hm) 0 w)

/-- A program of instructions that are not relocated is the same when it is linked. -/
theorem linked_eq_self {f : String → Option Int}
    (h : ∀ x ∈ s.instructions, x.classification.isRelocatable = false) : s.linked f = s := by
  have hx (m : Module) (hm : m ∈ s.modules) :
      ∀ x ∈ m.instructions, m.linkedInstruction f x = x := by
    intro x hxm
    have hrel := h x (List.mem_flatMap.2 ⟨m, hm, hxm⟩)
    rw [Module.linkedInstruction, m.finalAddress?_of_not_isRelocatable f hrel]
    exact Instruction.linkedAt_address hrel
  have hmodule : ∀ m ∈ s.modules, m.linked f = m := fun m hm =>
    congrArg (fun xs => { m with instructions := xs })
      ((List.map_congr_left (hx m hm)).trans (List.map_id _))
  exact congrArg Store.mk ((List.map_congr_left hmodule).trans (List.map_id _))

/-- **A program with nothing left to relocate is linked again** only where there was nothing to
relocate in the first place. -/
theorem Settled.secondPass_eq_ok (hs : s.Settled) :
    (Linkage.secondPass settings s t).result = .ok w ↔
      t.frozen = true ∧
        (∀ x ∈ s.instructions,
          x.classification.isRelocatable = false ∧ x.address ≤ settings.maxAddress) ∧
          ⟨s.words⟩ = w := by
  cases ht : t.frozen with
  | false =>
    rw [Linkage.secondPass, SymbolTable.requireFrozen, ht]
    exact iff_of_false (fun h => by cases h) fun h => Bool.false_ne_true h.1
  | true =>
    have hlinks : (∀ m ∈ s.modules, ∀ x ∈ m.instructions, m.Links settings t.addressOf x) ↔
        ∀ x ∈ s.instructions,
          x.classification.isRelocatable = false ∧ x.address ≤ settings.maxAddress := by
      rw [instructions, List.forall_mem_flatMap]
      refine forall₂_congr fun m hm => forall₂_congr fun x hx => ?_
      exact Module.links_iff_of_settled (hs x (List.mem_flatMap.2 ⟨m, hm, hx⟩))
    rw [Linkage.secondPass_eq_ok ht, hlinks, and_iff_right rfl]
    refine and_congr_right fun hkept => ?_
    rw [linked_eq_self fun x hx => (hkept x hx).1]

end Store

/-! ### Histories of programs that have been read -/

/-- What becomes of an instruction `x` that has been read: `y` is the instruction after some calls,
and `z` the instruction after some more. -/
structure Instruction.RelocatedOnce (x y z : Instruction) : Prop where
  classification : y.classification = x.classification
  opcode : y.opcode = x.opcode
  asRead : y.asRead = x.asRead
  location : y.location = x.location
  /-- Only relative and external instructions are relocated. -/
  relocatable : y.relocated = true → y.classification.isRelocatable = true
  /-- Until it is relocated an instruction has the address that was read. -/
  before : y.relocated = false → y.address = y.asRead
  /-- From then on it keeps its address. -/
  after : y.relocated = true → z.relocated = true ∧ z.address = y.address

theorem Instruction.Becomes.relocatedOnce {x y z : Instruction} (hx : x.relocated = false)
    (ha : x.asRead = x.address) (h : x.Becomes y) (h' : y.Becomes z) : x.RelocatedOnce y z := by
  have hafter (hy : y.relocated = true) : z.relocated = true ∧ z.address = y.address := by
    rw [h'.eq_of_settled fun _ => hy]
    exact ⟨hy, rfl⟩
  cases h with
  | same =>
    exact ⟨rfl, rfl, rfl, rfl, fun hy => absurd (hx.symm.trans hy) Bool.false_ne_true,
      fun _ => ha.symm, hafter⟩
  | relocated a hrel _ => exact ⟨rfl, rfl, rfl, rfl, fun _ => hrel, nofun, hafter⟩

section

variable {settings : Settings} {s : Store} {t : SymbolTable} {w : MemoryMap}

theorem Store.shape_afterAll (s : Store) (calls : List Call) :
    (s.afterAll calls).modules.map Module.shape = s.modules.map Module.shape := by
  refine afterAll_induction (P := fun s' => s'.modules.map Module.shape = _)
    (fun s' c h => Eq.trans ?_ h) rfl calls
  cases c with
  | firstPass settings => exact (Pass.first settings s').shape
  | secondPass settings t => exact (Pass.second settings s' t).shape
  | collectWarnings settings => rfl

/-- A second pass that succeeds gives the words of the program as it leaves it. -/
theorem words_reached_secondPass (h : (secondPass settings s t).result = .ok w) :
    ⟨(secondPass settings s t).reached.words⟩ = w := by
  rw [reached_secondPass h]
  cases ht : t.frozen with
  | false => rw [secondPass, SymbolTable.requireFrozen, ht] at h; cases h
  | true => exact ((secondPass_eq_ok ht).1 h).2

/-- **After a second pass that has succeeded** none changes the program any more, and one that
succeeds gives the same words. -/
theorem secondPass_again (h : (secondPass settings s t).result = .ok w)
    (more : List Store.Call) (again : Settings) (t' : SymbolTable) {s' : Store}
    (hs' : s' = (s.after (.secondPass settings t)).afterAll more) :
    (secondPass again s' t').reached = s' ∧
      ∀ w', (secondPass again s' t').result = .ok w' ↔ t'.frozen = true ∧
        (∀ x ∈ s'.instructions,
          x.classification.isRelocatable = false ∧ x.address ≤ again.maxAddress) ∧ w' = w := by
  have hsettled := Store.settled_reached_secondPass h
  have hbecomes := Store.becomes_afterAll (s.after (.secondPass settings t)) more
  have hwords : ⟨s'.words⟩ = w := by
    rw [hs', Store.words, hsettled.instructions_eq hbecomes]
    exact words_reached_secondPass h
  have hs : s'.Settled := hs' ▸ hsettled.becomes hbecomes
  refine ⟨hs.reached_secondPass again t', fun w' => ?_⟩
  rw [hs.secondPass_eq_ok, hwords, eq_comm (a := w)]

end

variable {settings : Settings} {tokens : List Token} {s : Store}

/-- **Instructions are relocated at most once.**  After any calls a program that has been read has
the modules and the instructions it had; an instruction has at most been relocated, if it is one
that is, and stays relocated.  A second pass that has succeeded is the last one to change
anything; a later one succeeds only where nothing is relocatable, with the same words. -/
theorem passes_relocate_once (hs : Store.parse settings tokens = .ok s)
    (calls more : List Store.Call) :
    (s.afterAll calls).modules.map Module.shape = s.modules.map Module.shape ∧
    (∀ (i j : Nat) (x : Instruction), s.instruction? i j = some x →
      ∃ y z, (s.afterAll calls).instruction? i j = some y ∧
        (s.afterAll (calls ++ more)).instruction? i j = some z ∧ x.RelocatedOnce y z) ∧
    ∀ (first : Settings) (t : SymbolTable) (w : MemoryMap),
      (secondPass first (s.afterAll calls) t).result = .ok w →
        ∀ (again : Settings) (t' : SymbolTable) (s' : Store),
          s' = s.afterAll (calls ++ .secondPass first t :: more) →
            (secondPass again s' t').reached = s' ∧
              ∀ w', (secondPass again s' t').result = .ok w' ↔ t'.frozen = true ∧
                (∀ x ∈ s'.instructions,
                  x.classification.isRelocatable = false ∧ x.address ≤ again.maxAddress) ∧
                    w' = w := by
  refine ⟨s.shape_afterAll calls, fun i j x hx => ?_, fun first t w hw again t' s' hs' => ?_⟩
  · obtain ⟨m, hm, hxm⟩ := Option.bind_eq_some_iff.1 hx
    have hmem := List.mem_of_getElem? hm
    have hxmem := List.mem_of_getElem? hxm
    obtain ⟨y, hy, hxy⟩ := (s.becomes_afterAll calls).instruction? hx
    obtain ⟨z, hz, hyz⟩ := ((s.afterAll calls).becomes_afterAll more).instruction? hy
    rw [Store.afterAll_append]
    exact ⟨y, z, hy, hz, hxy.relocatedOnce ((Store.asRead_of_parse hs).relocated m hmem x hxmem)
      (Store.asRead_eq_of_parse hs m hmem x hxmem).1 hyz⟩
  · refine secondPass_again hw more again t' ?_
    rw [hs', Store.afterAll_append]
    rfl

/-- The table of `forwardUse`. -/
def forwardUseTable : SymbolTable := (SymbolTable.ofEntries (.known .error) [⟨"z", 2, 1⟩]).freeze

/-- On a machine of one word the second pass stops at the first instruction and has relocated it by
then.  On one that is large enough it succeeds, and then never again. -/
theorem passes_relocate_once_forwardUse :
    Store.parse {} forwardUse = .ok forwardUseStore ∧
      (∃ x y z, forwardUseStore.instruction? 0 0 = some x ∧
        (forwardUseStore.afterAll [.secondPass { machineSize := 1 } forwardUseTable]).instruction?
          0 0 = some y ∧
        (forwardUseStore.afterAll [.secondPass { machineSize := 1 } forwardUseTable,
          .secondPass {} forwardUseTable]).instruction? 0 0 = some z ∧
        x.RelocatedOnce y z ∧ y.relocated = true) ∧
      (secondPass {} forwardUseStore forwardUseTable).result = .ok ⟨[1001, 2002, 4005]⟩ ∧
        ∀ again t w,
          (secondPass again (forwardUseStore.after (.secondPass {} forwardUseTable)) t).result ≠
            .ok w := by
  have hs : Store.parse {} forwardUse = .ok forwardUseStore := by rfl
  have hw : (secondPass {} forwardUseStore forwardUseTable).result =
      .ok ⟨[1001, 2002, 4005]⟩ := by rfl
  obtain ⟨-, hall, -⟩ := passes_relocate_once hs
    [.secondPass { machineSize := 1 } forwardUseTable] [.secondPass {} forwardUseTable]
  obtain ⟨y, z, hy, hz, hyz⟩ := hall 0 0 _ rfl
  obtain ⟨-, -, hagain⟩ := passes_relocate_once hs [] []
  refine ⟨hs, ⟨_, y, z, rfl, hy, hz, hyz, ?_⟩, hw, fun again t w h => ?_⟩
  · cases hy
    rfl
  · obtain ⟨-, hkept, -⟩ := ((hagain {} forwardUseTable _ hw again t _ rfl).2 w).1 h
    cases (hkept _ List.mem_cons_self).1

end Linkage
