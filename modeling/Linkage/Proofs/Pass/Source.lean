import Linkage.Proofs.Pass.History
import Linkage.Proofs.Warnings

/-!
# Passes — what a program keeps under any sequence of calls

A call keeps what was read (`Store.source_after`): the program with the addresses of its
instructions as they were and without addresses of definitions.  **The first pass and the warnings
look at nothing else** (`result_firstPass_source`, `collectWarnings_source`), so earlier calls, the
ones that failed included, do not matter to them.
-/

namespace Linkage

/-! ### What was read -/

/-- The instruction as it was read. -/
def Instruction.source (x : Instruction) : Instruction :=
  .fresh x.classification x.opcode x.asRead x.location

/-- The definition as it was read. -/
def Definition.source (d : Definition) : Definition := .fresh d.name d.relative d.location

/-- The module with its definitions and instructions as they were read. -/
def Module.source (m : Module) : Module :=
  { m with definitions := m.definitions.map Definition.source,
           instructions := m.instructions.map Instruction.source }

/-- The program as it was read. -/
def Store.source (s : Store) : Store := ⟨s.modules.map Module.source⟩

section

variable {settings : Settings} {t : SymbolTable} {m : Module} {d : Definition} {x y : Instruction}

theorem Instruction.Becomes.source (h : x.Becomes y) : y.source = x.source := by
  cases h with
  | same => rfl
  | relocated => rfl

theorem Definition.source_located (m : Module) (d : Definition) :
    (d.located m).source = d.source := by
  unfold located
  split <;> rfl

theorem Module.source_enterDefinition (settings : Settings) (m : Module) (i : Nat)
    (t : SymbolTable) (d : Definition) :
    (m.enterDefinition settings i t d).reached.source = d.source := by
  cases he : d.entryIn? m with
  | none => rw [Module.enterDefinition_of_none he]
  | some e =>
    rw [Module.enterDefinition_eq he]
    split
    · rfl
    · split <;> exact d.source_located m

theorem Module.source_enterDefinitions (settings : Settings) (t : SymbolTable) (m : Module) :
    (m.enterDefinitions settings t).reached.source = m.source :=
  congrArg (fun ds => { m.source with definitions := ds })
    (map_reached_sweep (m.source_enterDefinition settings) 0 t m.definitions)

theorem Module.source_linkInstructions (settings : Settings) (t : SymbolTable) (w : MemoryMap)
    (m : Module) : (m.linkInstructions settings t w).reached.source = m.source :=
  congrArg (fun xs => { m.source with instructions := xs })
    (map_reached_sweep (fun i w x => (m.becomes_linkInstruction settings t i w x).source) 0 w
      m.instructions)

/-- **A call keeps what was read.** -/
theorem Store.source_after (s : Store) (c : Call) : (s.after c).source = s.source := by
  cases c with
  | firstPass settings =>
    have h (_ : Nat) (t : SymbolTable) (m : Module) := m.source_enterDefinitions settings t
    exact congrArg Store.mk (map_reached_sweep h 0 _ s.modules)
  | secondPass settings t =>
    show (Linkage.secondPass settings s t).reached.source = _
    unfold Linkage.secondPass
    cases t.requireFrozen with
    | error e => rfl
    | ok _ =>
      have h (_ : Nat) (w : MemoryMap) (m : Module) := m.source_linkInstructions settings t w
      exact congrArg Store.mk (map_reached_sweep h 0 _ s.modules)
  | collectWarnings settings => rfl

theorem Store.source_afterAll (s : Store) (calls : List Call) :
    (s.afterAll calls).source = s.source :=
  afterAll_induction (P := fun s' => s'.source = s.source)
    (fun s' c h => (s'.source_after c).trans h) rfl calls

/-- The table takes a definition as it was read in the same way. -/
theorem enterSite_source :
    enterSite settings t (m.source, d.source) = enterSite settings t (m, d) := by
  have he : d.source.entryIn? m.source = d.entryIn? m := rfl
  cases hd : d.entryIn? m with
  | none => rw [enterSite_of_none (he.trans hd), enterSite_of_none hd]
  | some e =>
    rw [enterSite_eq (he.trans hd), enterSite_eq hd]
    rfl

/-- **The first pass looks at what was read**, and at nothing else. -/
theorem result_firstPass_source (settings : Settings) (s : Store) :
    (firstPass settings s.source).result = (firstPass settings s).result := by
  have hsites : s.source.definitionSites =
      s.definitionSites.map fun site => (site.1.source, site.2.source) :=
    Store.definitionSites_map (fun _ => rfl) s.modules
  have hstep : (fun t (site : Module × Definition) =>
      enterSite settings t (site.1.source, site.2.source)) = enterSite settings := by
    funext t site
    exact enterSite_source
  rw [result_firstPass, hsites, List.foldlM_map, hstep, result_firstPass]

/-- **The warnings look at what was read**, and at nothing else. -/
theorem collectWarnings_source (settings : Settings) (s : Store) :
    collectWarnings settings s.source.modules = collectWarnings settings s.modules := by
  refine collectWarnings_congr ?_ settings
  have houtline (m : Module) : m.source.outline = m.outline := by
    simp only [Module.outline, Module.source, List.map_map]
    rfl
  show (s.modules.map Module.source).map Module.outline = _
  rw [List.map_map]
  exact List.map_congr_left fun m _ => houtline m

end

/-! ### The first pass and the warnings after some calls -/

variable {settings : Settings} {tokens : List Token} {s : Store}

/-- **The first pass and the warnings do not see what the passes change.**  After any calls the
first pass over a program that has been read gives the table, or fails with the error, that it
gives or fails with at once, and the warnings are those of the program as it was read. -/
theorem firstPass_collectWarnings_afterAll (hs : Store.parse settings tokens = .ok s)
    (calls : List Store.Call) (settings' : Settings) :
    (firstPass settings' (s.afterAll calls)).result = (firstPass settings' s).result ∧
      (collectWarnings settings' (s.afterAll calls).modules).result =
        .ok (warningsOf settings' s.modules) ∧
          (collectWarnings settings' s.modules).result = .ok (warningsOf settings' s.modules) := by
  have hwarnings : (collectWarnings settings' s.modules).result =
      .ok (warningsOf settings' s.modules) :=
    result_collectWarnings (Store.asRead_of_parse hs).hasOffsets
  refine ⟨?_, ?_, hwarnings⟩
  · rw [← result_firstPass_source, Store.source_afterAll, result_firstPass_source]
  · rw [← collectWarnings_source, Store.source_afterAll, collectWarnings_source, hwarnings]

theorem firstPass_collectWarnings_afterAll_forwardUse :
    Store.parse {} forwardUse = .ok forwardUseStore ∧
      (firstPass {} (forwardUseStore.afterAll [.firstPass {},
        .secondPass { machineSize := 1 } forwardUseTable])).result = .ok forwardUseTable ∧
        (collectWarnings {} (forwardUseStore.afterAll [.firstPass {},
          .secondPass { machineSize := 1 } forwardUseTable]).modules).result = .ok [] := by
  have hs : Store.parse {} forwardUse = .ok forwardUseStore := by rfl
  obtain ⟨htable, hwarnings, -⟩ := firstPass_collectWarnings_afterAll hs
    [.firstPass {}, .secondPass { machineSize := 1 } forwardUseTable] {}
  exact ⟨hs, htable.trans (by rfl), hwarnings.trans (by rfl)⟩

end Linkage
