import Linkage.Proofs.Warnings

/-!
# Renumbering — what the numbers of modules are for

The number of a module is shown in the entries of its definitions, in the warnings about it and in
failures.  It decides nothing.  `renumbered σ` replaces every number `i` by `σ i`, for any `σ`, and
each stage of a link commutes with it: the entries (`entries_renumbered`), what names stand for
(`addressOf_renumbered`), the table (`ofEntries_renumbered`), the image (`image_renumbered`) and the
warnings (`warningsOf_renumbered`).

So a program with other numbers is linkable as it was before, and the link gives the same with other
numbers (`linkable_renumbered`, `ofStore_renumbered`): the words, the addresses of names and the
repeated names are the same.
-/

namespace Linkage

variable {σ : Nat → Nat}

/-- The module under another number. -/
def Module.renumbered (σ : Nat → Nat) (m : Module) : Module := { m with index := σ m.index }

/-- The program with other numbers for its modules. -/
def Store.renumbered (σ : Nat → Nat) (s : Store) : Store := ⟨s.modules.map (Module.renumbered σ)⟩

/-- The entry of a module under another number. -/
def Entry.renumbered (σ : Nat → Nat) (e : Entry) : Entry :=
  { e with moduleIndex := σ e.moduleIndex.toNat }

/-- The table with other numbers in its entries. -/
def SymbolTable.renumbered (σ : Nat → Nat) (t : SymbolTable) : SymbolTable :=
  { t with
    entries := t.entries.map (Entry.renumbered σ)
    resolved := t.resolved.map (Entry.renumbered σ) }

/-- The warning about a module under another number. -/
def Warning.renumbered (σ : Nat → Nat) : Warning → Warning
  | .beyondModule i symbol offset size => .beyondModule (σ i) symbol offset size
  | .neverUsed i symbol                => .neverUsed (σ i) symbol
  | .neverReferenced i symbol          => .neverReferenced (σ i) symbol

/-- The result of a link with other numbers for the modules. -/
def LinkResult.renumbered (σ : Nat → Nat) (r : LinkResult) : LinkResult where
  store := r.store.renumbered σ
  symbols := r.symbols.renumbered σ
  memory := r.memory
  warnings := r.warnings.map (Warning.renumbered σ)

/-! ### Tables -/

namespace SymbolTable

@[simp] theorem addresses_renumbered (t : SymbolTable) :
    (t.renumbered σ).addresses = t.addresses := List.map_map

@[simp] theorem duplicates_renumbered (t : SymbolTable) :
    (t.renumbered σ).duplicates = t.duplicates := by
  have hnames : (t.renumbered σ).entries.map Entry.name = t.entries.map Entry.name :=
    List.map_map
  rw [duplicates, hnames, duplicates]

theorem lookup_renumbered (t : SymbolTable) (name : String) :
    (t.renumbered σ).lookup name = (t.lookup name).map (Entry.renumbered σ) := List.find?_map

theorem resolvedWith_renumbered (t : SymbolTable) (e : Entry) :
    (t.renumbered σ).resolvedWith (e.renumbered σ) =
      (t.resolvedWith e).map (Entry.renumbered σ) := by
  have hcontains : (t.renumbered σ).contains (e.renumbered σ).name = t.contains e.name := by
    rw [contains, lookup_renumbered, Option.isSome_map]
    rfl
  have hpolicy : (t.renumbered σ).policy = t.policy := rfl
  have hresolved : (t.renumbered σ).resolved = t.resolved.map (Entry.renumbered σ) := rfl
  unfold resolvedWith
  rw [hcontains, hpolicy, hresolved]
  generalize t.policy = p
  split
  · split
    · rw [List.map_map, List.map_map]
      refine List.map_congr_left fun old _ => ?_
      show (if old.name == e.name then e.renumbered σ else old.renumbered σ) =
        (if old.name == e.name then e else old).renumbered σ
      split <;> rfl
    · rfl
  · rw [List.map_append]
    rfl

/-- A table takes an entry whatever the numbers of the modules are. -/
theorem enter_renumbered (t : SymbolTable) (e : Entry) :
    (t.renumbered σ).enter (e.renumbered σ) = (t.enter e).renumbered σ := by
  have hentries : (t.renumbered σ).entries ++ [e.renumbered σ] =
      (t.entries ++ [e]).map (Entry.renumbered σ) := by
    rw [List.map_append]
    rfl
  rw [enter, resolvedWith_renumbered, hentries]
  rfl

theorem enterAll_renumbered (t : SymbolTable) (es : List Entry) :
    (t.renumbered σ).enterAll (es.map (Entry.renumbered σ)) = (t.enterAll es).renumbered σ := by
  induction es generalizing t with
  | nil => rfl
  | cons e es ih => rw [List.map_cons, enterAll_cons, enter_renumbered, ih, enterAll_cons]

theorem ofEntries_renumbered (policy : PolicySetting) (es : List Entry) :
    ofEntries policy (es.map (Entry.renumbered σ)) = (ofEntries policy es).renumbered σ :=
  enterAll_renumbered (empty policy) es

end SymbolTable

/-! ### Programs -/

namespace Store

variable {settings : Settings} {s : Store}

theorem entries_renumbered (s : Store) :
    (s.renumbered σ).entries = s.entries.map (Entry.renumbered σ) := by
  refine entries_map (φ := Module.renumbered σ) (fun _ => (List.map_id _).symm) (fun m d => ?_)
    s.modules
  rw [Definition.entryIn?, Definition.entryIn?, Option.map_map]
  rfl

theorem definedNames_renumbered (s : Store) : (s.renumbered σ).definedNames = s.definedNames :=
  List.flatMap_map ..

theorem addressOf_renumbered (policy : PolicySetting) (s : Store) :
    (s.renumbered σ).addressOf policy = s.addressOf policy := by
  funext name
  rw [addressOf, entries_renumbered, entriesNamed_map (f := Entry.renumbered σ) (fun _ => rfl),
    PolicySetting.choose_map, Option.map_map]
  rfl

/-- **A program is linkable** whatever the numbers of its modules are. -/
theorem linkable_renumbered : (s.renumbered σ).Linkable settings ↔ s.Linkable settings := by
  have hnames := definedNames_renumbered (σ := σ) s
  constructor
  · intro hl
    exact ⟨List.forall_mem_map.1 hl.defined, hnames ▸ hl.distinct,
      hnames ▸ List.forall_mem_map.1 hl.resolved, List.forall_mem_map.1 hl.relative⟩
  · intro hl
    exact ⟨List.forall_mem_map.2 hl.defined, hnames ▸ hl.distinct,
      List.forall_mem_map.2 (hnames ▸ hl.resolved), List.forall_mem_map.2 hl.relative⟩

theorem image_renumbered (policy : PolicySetting) (s : Store) :
    (s.renumbered σ).image policy = (s.image policy).renumbered σ := by
  have hd (m : Module) (d : Definition) : d.located (m.renumbered σ) = d.located m := by
    unfold Definition.located Definition.entryIn?
    cases d.relative with
    | none => rfl
    | some offset => rfl
  have hm (f : String → Option Int) (m : Module) :
      (m.renumbered σ).located.linked f = (m.located.linked f).renumbered σ :=
    congrArg (fun ds => { (m.linked f).renumbered σ with definitions := ds })
      (List.map_congr_left fun d _ => hd m d)
  have hmodules : ((s.renumbered σ).image policy).modules =
      ((s.image policy).renumbered σ).modules := by
    rw [modules_image, addressOf_renumbered, renumbered, renumbered, modules_image, List.map_map,
      List.map_map]
    exact List.map_congr_left fun m _ => hm _ m
  exact congrArg Store.mk hmodules

end Store

/-! ### Warnings -/

namespace Module

theorem warnings_renumbered (settings : Settings) (names : List String) (m : Module) :
    (m.renumbered σ).warnings settings names =
      (m.warnings settings names).map (Warning.renumbered σ) := by
  have hsize : (m.renumbered σ).sizeWarnings = m.sizeWarnings.map (Warning.renumbered σ) := by
    rw [sizeWarnings, sizeWarnings, List.map_filterMap]
    refine congrArg (fun f => m.definitions.filterMap f) (funext fun d => ?_)
    unfold Definition.beyondWarning?
    cases d.relative with
    | none => rfl
    | some offset =>
      show (if (m.length : Int) ≤ offset then _ else none) = Option.map _ (if _ then _ else none)
      split <;> rfl
  have hun : (m.renumbered σ).unusedWarnings names =
      (m.unusedWarnings names).map (Warning.renumbered σ) := by
    rw [unusedWarnings, unusedWarnings, List.map_map]
    rfl
  have href : (m.renumbered σ).unreferencedWarnings =
      m.unreferencedWarnings.map (Warning.renumbered σ) := by
    rw [unreferencedWarnings, unreferencedWarnings, List.map_map]
    rfl
  rw [warnings, warnings, hsize, hun, href, List.map_append]
  split
  · rw [List.map_append]
  · rfl

end Module

theorem warningsOf_renumbered (settings : Settings) (s : Store) :
    warningsOf settings (s.renumbered σ).modules =
      (warningsOf settings s.modules).map (Warning.renumbered σ) := by
  have hnames : usedNames (s.renumbered σ).modules = usedNames s.modules := List.flatMap_map ..
  rw [warningsOf, hnames, Store.renumbered, List.flatMap_map, warningsOf, List.map_flatMap]
  exact congrArg (fun f => s.modules.flatMap f) (funext fun m =>
    m.warnings_renumbered settings (usedNames s.modules))

/-- **The link of a program with other numbers** gives the same with other numbers. -/
theorem ofStore_renumbered (settings : Settings) (s : Store) :
    LinkResult.ofStore settings (s.renumbered σ) = (LinkResult.ofStore settings s).renumbered σ := by
  have hmemory : ((s.image settings.policy).renumbered σ).words =
      (s.image settings.policy).words :=
    congrArg (List.map Instruction.word) (List.flatMap_map ..)
  simp only [LinkResult.ofStore, LinkResult.renumbered, Store.image_renumbered,
    Store.entries_renumbered, SymbolTable.ofEntries_renumbered, warningsOf_renumbered, hmemory]
  rfl

end Linkage
