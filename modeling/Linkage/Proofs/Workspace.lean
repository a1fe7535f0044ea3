import Linkage.Proofs.Contiguity
import Linkage.Workspace
import Mathlib.Data.List.Nodup

/-!
# Workspaces — programs that are built by hand stay laid out

A module is placed once and may change afterwards, while its start stays what it was.  So the layout
depends on when instructions are added: to a module that has not been placed, or to the last one,
behind which nothing starts yet.  `Workspace.Change` has the changes of a workspace under this rule.

* `LaidOut`: the program refers to modules of the pool, to none of them twice, and is laid out.
* `Change.laidOut`: **a change keeps a workspace laid out.**  A module that is placed comes behind
  the others (`store_append`), and an instruction changes the program only at its last module.  The
  other changes keep the shape of every module (`SameShape`), a pass also where it fails.
* `contiguous_of_changes`: so after any number of changes the modules share out the addresses of the
  program in order.
-/

namespace Linkage

namespace Workspace

variable {w w' : Workspace} {s : Store} {m : Module} {ref r : Nat} {refs : List Nat}

/-- One change of a workspace.  A module is placed at most once, and gets instructions only before
that or while it is the last one. -/
inductive Change : Workspace → Workspace → Prop where
  | add (w : Workspace) (m : Module) : Change w (w.add m)
  | append (w : Workspace) (ref : Nat) (known : ref < w.pool.length) (fresh : ref ∉ w.program) :
    Change w (w.append ref)
  | addDefinition (w : Workspace) (ref : Nat) (d : Definition) :
    Change w (w.modify ref (·.addDefinition d))
  | addUse (w : Workspace) (ref : Nat) (u : Use) : Change w (w.modify ref (·.addUse u))
  | addInstruction (w : Workspace) (ref : Nat) (x : Instruction)
    (growing : ref ∉ w.program ∨ w.program.getLast? = some ref) :
    Change w (w.modify ref (·.addInstruction x))
  /-- The program becomes one that has been read. -/
  | parse (w : Workspace) (settings : Settings) (tokens : List Token) (s : Store)
    (parsed : Store.parse settings tokens = .ok s) : Change w (w.load s)
  | firstPass (w : Workspace) (settings : Settings) : Change w (w.firstPass settings).reached
  | secondPass (w : Workspace) (settings : Settings) (t : SymbolTable) :
    Change w (w.secondPass settings t).reached

/-- The program refers to modules of the pool, to each at most once, and they are laid out. -/
structure LaidOut (w : Workspace) : Prop where
  known : ∀ ref ∈ w.program, ref < w.pool.length
  distinct : w.program.Nodup
  placed : w.store.LaidOut

/-! ### Modules of the pool -/

theorem get_set_self (h : ref < w.pool.length) (m : Module) : (w.set ref m).get ref = m := by
  rw [get, set, List.getD_eq_getElem?_getD, List.getElem?_set_self h, Option.getD_some]

theorem get_set_of_ne (h : ref ≠ r) (m : Module) : (w.set ref m).get r = w.get r := by
  rw [get, get, set, List.getD_eq_getElem?_getD, List.getElem?_set_ne h,
    ← List.getD_eq_getElem?_getD]

/-- Modules whose references are others stay as they are. -/
theorem map_get_set (h : ref ∉ refs) (m : Module) :
    refs.map (w.set ref m).get = refs.map w.get :=
  List.map_congr_left fun _ hr => get_set_of_ne (ne_of_mem_of_not_mem hr h).symm m

/-- A module that is placed comes behind those of the program. -/
theorem store_append (known : ref < w.pool.length) (fresh : ref ∉ w.program) :
    (w.append ref).store = w.store.append (w.get ref) := by
  have hmodules : (w.append ref).modules =
      (w.program ++ [ref]).map (w.set ref (w.store.place (w.get ref))).get := rfl
  rw [store, hmodules, List.map_append, map_get_set fresh, List.map_singleton, get_set_self known]
  rfl

/-- The program that has been loaded is the store. -/
theorem store_load (w : Workspace) (s : Store) : (w.load s).store = s := by
  refine congrArg Store.mk ?_
  rw [modules, load, List.map_map]
  refine List.ext_getElem (by simp) fun i hi hi' => ?_
  simp [get, List.getD_eq_getElem?_getD, hi']

/-! ### Changes that keep the shape of every module -/

/-- The program is the same, and every module has the shape that it had. -/
structure SameShape (w w' : Workspace) : Prop where
  program : w'.program = w.program
  length : w'.pool.length = w.pool.length
  shape : ∀ ref, (w'.get ref).shape = (w.get ref).shape

theorem SameShape.refl (w : Workspace) : w.SameShape w := ⟨rfl, rfl, fun _ => rfl⟩

theorem SameShape.trans {w₁ : Workspace} (h : w.SameShape w₁) (h₁ : w₁.SameShape w') :
    w.SameShape w' :=
  ⟨h₁.program.trans h.program, h₁.length.trans h.length,
    fun ref => (h₁.shape ref).trans (h.shape ref)⟩

theorem sameShape_set (h : m.shape = (w.get ref).shape) : w.SameShape (w.set ref m) := by
  refine ⟨rfl, List.length_set, fun r => ?_⟩
  by_cases hr : ref = r
  · subst hr
    by_cases hk : ref < w.pool.length
    · rw [get_set_self hk, h]
    · rw [set, List.set_eq_of_length_le (Nat.not_lt.1 hk)]
  · rw [get_set_of_ne hr]

/-- Visits that keep the shape of a module keep all shapes, also where one of them fails. -/
theorem sameShape_sweep {α : Type} {visit : α → Module → Outcome Module α}
    (h : ∀ a m, (visit a m).reached.shape = m.shape) (w : Workspace) (a : α) (refs : List Nat) :
    w.SameShape (sweep visit w a refs).reached := by
  induction refs generalizing w a with
  | nil => exact .refl w
  | cons ref refs ih =>
    have hset : w.SameShape (w.set ref (visit a (w.get ref)).reached) := sameShape_set (h a _)
    rw [sweep]
    cases (visit a (w.get ref)).result with
    | error e => exact hset
    | ok b => exact hset.trans (ih _ b)

theorem LaidOut.of_sameShape (h : w.LaidOut) (hs : w.SameShape w') : w'.LaidOut := by
  have hmodules : w'.modules.map Module.shape = w.modules.map Module.shape := by
    rw [modules, modules, List.map_map, List.map_map, hs.program]
    exact List.map_congr_left fun ref _ => hs.shape ref
  refine ⟨fun ref hr => ?_, ?_, h.placed.of_shape hmodules⟩
  · rw [hs.length]
    exact h.known ref (hs.program ▸ hr)
  · rw [hs.program]
    exact h.distinct

/-! ### Changes of the program -/

theorem LaidOut.add (h : w.LaidOut) (m : Module) : (w.add m).LaidOut := by
  have hget : w.program.map (w.add m).get = w.program.map w.get := by
    refine List.map_congr_left fun ref hr => ?_
    rw [get, get, Workspace.add, List.getD_eq_getElem?_getD,
      List.getElem?_append_left (h.known ref hr), ← List.getD_eq_getElem?_getD]
  refine ⟨fun ref hr => ?_, h.distinct, ?_⟩
  · rw [Workspace.add, List.length_append]
    exact Nat.lt_add_right _ (h.known ref hr)
  · have hstore : (w.add m).store = w.store := congrArg Store.mk hget
    rw [hstore]
    exact h.placed

theorem LaidOut.append (h : w.LaidOut) (known : ref < w.pool.length) (fresh : ref ∉ w.program) :
    (w.append ref).LaidOut := by
  refine ⟨fun r hr => ?_, ?_, store_append known fresh ▸ h.placed.append _⟩
  · have hlen : (w.append ref).pool.length = w.pool.length := List.length_set
    rw [hlen]
    rcases List.mem_append.1 hr with hr | hr
    · exact h.known r hr
    · exact List.mem_singleton.1 hr ▸ known
  · exact List.nodup_append.2 ⟨h.distinct, List.nodup_singleton ref, fun r hr r' hr' he =>
      fresh (List.mem_singleton.1 hr' ▸ he ▸ hr)⟩

/-- An instruction may be added to a module that has not been placed, or to the last one. -/
theorem LaidOut.addInstruction (h : w.LaidOut) (x : Instruction)
    (growing : ref ∉ w.program ∨ w.program.getLast? = some ref) :
    (w.modify ref (·.addInstruction x)).LaidOut := by
  refine ⟨fun r hr => ?_, h.distinct, ?_⟩
  · rw [modify, set, List.length_set]
    exact h.known r hr
  · rcases growing with hout | hlast
    · -- the program does not show the change
      have hstore : (w.modify ref (·.addInstruction x)).store = w.store :=
        congrArg Store.mk (map_get_set hout _)
      rw [hstore]
      exact h.placed
    · obtain ⟨refs, hrefs⟩ := List.getLast?_eq_some_iff.1 hlast
      have hmem : ref ∈ w.program := hrefs ▸ List.mem_append_right refs List.mem_cons_self
      have hout : ref ∉ refs := fun hr => by
        have hd := h.distinct
        rw [hrefs] at hd
        exact (List.nodup_append.1 hd).2.2 ref hr ref List.mem_cons_self rfl
      have hbefore : w.store = ⟨refs.map w.get ++ [w.get ref]⟩ := by
        rw [store, modules, hrefs, List.map_append, List.map_singleton]
      have hafter : (w.modify ref (·.addInstruction x)).store =
          ⟨refs.map w.get ++ [(w.get ref).addInstruction x]⟩ := by
        have hprogram : (w.modify ref (·.addInstruction x)).program = refs ++ [ref] := hrefs
        rw [store, modules, hprogram, List.map_append, List.map_singleton, modify, map_get_set hout,
          get_set_self (h.known ref hmem)]
      have hstore := h.placed
      rw [hbefore, Store.laidOut_concat] at hstore
      rw [hafter, Store.laidOut_concat]
      exact hstore

theorem laidOut_load (w : Workspace) (h : s.LaidOut) : (w.load s).LaidOut := by
  refine ⟨fun ref hr => ?_, ?_, (store_load w s).symm ▸ h⟩
  · obtain ⟨i, hi, rfl⟩ := List.mem_map.1 hr
    rw [load, List.length_append]
    exact Nat.add_lt_add_left (List.mem_range.1 hi) _
  · exact List.nodup_range.map fun _ _ he => Nat.add_left_cancel he

/-- **A change keeps a workspace laid out.** -/
theorem Change.laidOut (h : Change w w') (hw : w.LaidOut) : w'.LaidOut := by
  cases h with
  | add m => exact hw.add m
  | append ref known fresh => exact hw.append known fresh
  | addDefinition ref d => exact hw.of_sameShape (sameShape_set rfl)
  | addUse ref u => exact hw.of_sameShape (sameShape_set rfl)
  | addInstruction ref x growing => exact hw.addInstruction x growing
  | parse settings tokens s parsed => exact laidOut_load w (Store.laidOut_of_parse parsed)
  | firstPass settings =>
    have hkeep (t : SymbolTable) (m : Module) := m.shape_enterDefinitions settings t
    exact hw.of_sameShape (sameShape_sweep hkeep w _ w.program)
  | secondPass settings t =>
    have hkeep (words : MemoryMap) (m : Module) := m.shape_linkInstructions settings t words
    unfold Workspace.secondPass
    cases t.requireFrozen with
    | error e => exact hw
    | ok _ => exact hw.of_sameShape (sameShape_sweep hkeep w _ w.program)

/-- Changes keep a workspace laid out. -/
theorem laidOut_of_changes (hw : w.LaidOut) (h : Relation.ReflTransGen Change w w') :
    w'.LaidOut := by
  induction h with
  | refl => exact hw
  | tail _ hchange ih => exact hchange.laidOut ih

/-! ### Every reachable program -/

/-- **The modules share out the addresses of the program in order**, after any changes of a
workspace whose program was empty, and after any passes over a program that has been read. -/
theorem contiguous_of_changes :
    (∀ pool w, Relation.ReflTransGen Change ⟨pool, []⟩ w → w.store.Contiguous) ∧
      ∀ settings tokens s s', Store.parse settings tokens = .ok s →
        Relation.ReflTransGen Store.Pass s s' → s'.Contiguous := by
  refine ⟨fun pool w h => ?_, fun settings tokens s s' hs h => ?_⟩
  · have hempty : LaidOut ⟨pool, []⟩ := ⟨nofun, List.nodup_nil, nofun⟩
    exact (laidOut_of_changes hempty h).placed.contiguous
  · exact (laidOut_of_passes (Store.laidOut_of_parse hs) h).contiguous

/-- Three modules, of which the second has no words, and the others have one each. -/
def emptyBetween : Workspace :=
  let x : Instruction := .fresh .immediate 1 0 none
  let w₁ := (append ⟨[{}, {}, {}], []⟩ 0).modify 0 (·.addInstruction x)
  ((w₁.append 1).append 2).modify 2 (·.addInstruction x)

theorem contiguous_of_changes_emptyBetween :
    emptyBetween.store.totalLength = 2 ∧ emptyBetween.store.Contiguous := by
  refine ⟨rfl, contiguous_of_changes.1 [{}, {}, {}] emptyBetween ?_⟩
  exact .tail (.tail (.tail (.tail (.tail .refl
    (.append _ 0 (by decide) (by decide)))
    (.addInstruction _ 0 _ (.inr rfl)))
    (.append _ 1 (by decide) (by decide)))
    (.append _ 2 (by decide) (by decide)))
    (.addInstruction _ 2 _ (.inr rfl))

/-- An instruction that is added to a module before the last one overlaps with the module behind
it. -/
example :
    let w := ((append ⟨[{}, {}], []⟩ 0).append 1).modify 0
      (·.addInstruction (.fresh .immediate 1 0 none))
    w.store.nextStart = 0 ∧ w.store.totalLength = 1 := by decide

end Workspace

end Linkage
