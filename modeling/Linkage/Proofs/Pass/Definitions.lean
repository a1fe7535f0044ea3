import Linkage.Pass.Definitions
import Linkage.Proofs.SymbolTable
import Linkage.Proofs.Sweep

/-!
# First pass — the entries of a program, in program order

Every definition asks for an entry (`Definition.entryIn?`): its name with its address.  The entries
of a program are those of its definitions in order (`Store.entries`), and the first pass enters one
after another: its result is the fold of `enterSite` over the definitions, each with its module
(`result_firstPass`).

* `firstPass_eq_ok`: the pass succeeds when every address is one of the machine and the table admits
  the entries, and it gives the frozen table of all entries.
* `reached_firstPass`: it has then written its address into every definition.
* `firstPass_eq_numeral`: when it stops with a numeral error, from when one definition does
  (`enterSite_eq_numeral`).
-/

namespace Linkage

/-! ### Entries -/

namespace Definition

/-- The entry that a definition of the module asks for; without an offset there is none. -/
def entryIn? (m : Module) (d : Definition) : Option Entry :=
  d.relative.map fun offset => ⟨d.name, offset + m.start, m.index⟩

theorem entryIn?_of_relative (m : Module) {d : Definition} {offset : Int}
    (h : d.relative = some offset) : d.entryIn? m = some ⟨d.name, offset + m.start, m.index⟩ := by
  rw [entryIn?, h, Option.map_some]

/-- The definition of the module with the address of its entry. -/
def located (m : Module) (d : Definition) : Definition :=
  match d.entryIn? m with
  | some e => d.placed e.address
  | none   => d

@[simp] theorem relative_located (m : Module) (d : Definition) :
    (d.located m).relative = d.relative := by
  unfold located
  split <;> rfl

@[simp] theorem name_located (m : Module) (d : Definition) : (d.located m).name = d.name := by
  unfold located
  split <;> rfl

end Definition

/-- The module with the addresses of its definitions. -/
def Module.located (m : Module) : Module :=
  { m with definitions := m.definitions.map (Definition.located m) }

/-- The entries that some definitions ask for, each given with its module. -/
def entriesAt (sites : List (Module × Definition)) : List Entry :=
  sites.filterMap fun site => site.2.entryIn? site.1

theorem entriesAt_cons {m : Module} {d : Definition} {e : Entry} (he : d.entryIn? m = some e)
    (sites : List (Module × Definition)) : entriesAt ((m, d) :: sites) = e :: entriesAt sites :=
  List.filterMap_cons_some he

/-- Where every definition has an offset the entries have the names of the definitions. -/
theorem map_name_entriesAt {sites : List (Module × Definition)}
    (h : ∀ site ∈ sites, site.2.relative ≠ none) :
    (entriesAt sites).map Entry.name = sites.map fun site => site.2.name := by
  induction sites with
  | nil => rfl
  | cons site sites ih =>
    obtain ⟨m, d⟩ := site
    obtain ⟨hd, hsites⟩ := List.forall_mem_cons.1 h
    obtain ⟨offset, ho⟩ := Option.ne_none_iff_exists'.1 hd
    rw [entriesAt_cons (Definition.entryIn?_of_relative m ho), List.map_cons, List.map_cons,
      ih hsites]

namespace Store

/-- The program with the addresses of its definitions. -/
def located (s : Store) : Store := ⟨s.modules.map Module.located⟩

/-- The definitions of a program in order, each with its module. -/
def definitionSites (s : Store) : List (Module × Definition) :=
  s.modules.flatMap fun m => m.definitions.map (Prod.mk m)

/-- The entries of a program in order. -/
def entries (s : Store) : List Entry := entriesAt s.definitionSites

theorem mem_definitionSites {s : Store} {m : Module} {d : Definition} :
    (m, d) ∈ s.definitionSites ↔ m ∈ s.modules ∧ d ∈ m.definitions := by
  unfold definitionSites
  rw [List.mem_flatMap]
  constructor
  · rintro ⟨m', hm, h⟩
    obtain ⟨d', hd, he⟩ := List.mem_map.1 h
    cases he
    exact ⟨hm, hd⟩
  · rintro ⟨hm, hd⟩
    exact ⟨m, hm, List.mem_map_of_mem hd⟩

/-- Where modules are changed, and their definitions one by one, so are the definitions of the
program. -/
theorem definitionSites_map {φ : Module → Module} {χ : Definition → Definition}
    (hφ : ∀ m, (φ m).definitions = m.definitions.map χ) (ms : List Module) :
    definitionSites ⟨ms.map φ⟩ =
      (definitionSites ⟨ms⟩).map fun site => (φ site.1, χ site.2) := by
  simp only [definitionSites, List.flatMap_map, List.map_flatMap, List.map_map, hφ]
  rfl

end Store

/-! ### One definition -/

section

variable {settings : Settings} {m : Module} {d : Definition} {i : Nat} {t t' : SymbolTable}
  {p : DuplicatePolicy}

/-- Visiting a definition that asks for an entry, case by case. -/
theorem Module.enterDefinition_eq {e : Entry} (he : d.entryIn? m = some e) :
    m.enterDefinition settings i t d =
      if settings.maxAddress < e.address then
        ⟨d, [], .error (addressBeyond settings e.address d.location m.index)⟩
      else
        match t.define e d.location with
        | .ok t'   => ⟨d.located m, t.defineEvents e, .ok t'⟩
        | .error f => ⟨d.located m, [], .error f⟩ := by
  obtain ⟨name, relative, absolute, location⟩ := d
  cases relative with
  | none => cases he
  | some offset => obtain rfl := Option.some.inj he; rfl

theorem Module.enterDefinition_of_none (he : d.entryIn? m = none) :
    m.enterDefinition settings i t d = ⟨d, [], .error (.fault .noOffsetToPlace)⟩ := by
  rw [Module.enterDefinition, Option.map_eq_none_iff.1 he]

/-- What the first pass makes of the table at a definition. -/
def enterSite (settings : Settings) (t : SymbolTable) (site : Module × Definition) :
    Except Failure SymbolTable :=
  (site.1.enterDefinition settings 0 t site.2).result

/-- The definition lies at an address of the machine. -/
def Definition.InMachine (settings : Settings) (m : Module) (d : Definition) : Prop :=
  ∃ offset, d.relative = some offset ∧ offset + m.start ≤ settings.maxAddress

theorem Definition.inMachine_iff :
    d.InMachine settings m ↔ ∃ e, d.entryIn? m = some e ∧ e.address ≤ settings.maxAddress := by
  unfold InMachine entryIn?
  cases d.relative with
  | none => simp only [Option.map_none, reduceCtorEq, false_and, exists_false]
  | some offset => simp only [Option.map_some, Option.some.injEq, exists_eq_left']

theorem enterSite_of_none (he : d.entryIn? m = none) :
    enterSite settings t (m, d) = .error (.fault .noOffsetToPlace) := by
  rw [enterSite, Module.enterDefinition_of_none he]

/-- A definition with an entry is refused beyond the machine, and else the table has to take it. -/
theorem enterSite_eq {e : Entry} (he : d.entryIn? m = some e) :
    enterSite settings t (m, d) =
      if settings.maxAddress < e.address then
        .error (addressBeyond settings e.address d.location m.index)
      else t.define e d.location := by
  rw [enterSite, Module.enterDefinition_eq he]
  split
  · rfl
  · split <;> simp only [*]

theorem enterSite_eq_ok (hp : t.policy = .known p) (hf : t.frozen = false) :
    enterSite settings t (m, d) = .ok t' ↔
      ∃ e, d.entryIn? m = some e ∧ e.address ≤ settings.maxAddress ∧
        (t.policy = .known .error → t.lookup e.name = none) ∧ t.enter e = t' := by
  cases he : d.entryIn? m with
  | none =>
    rw [enterSite_of_none he]
    exact iff_of_false (fun h => by cases h) (fun ⟨_, h, _⟩ => by cases h)
  | some e =>
    rw [enterSite_eq he]
    simp only [Option.some.injEq, exists_eq_left']
    split
    · next hmax => exact iff_of_false (fun h => by cases h) fun h => Int.not_le.2 hmax h.1
    · next hmax => rw [SymbolTable.define_eq_ok hp hf, and_iff_right (Int.not_lt.1 hmax)]

/-- A definition stops the pass with a numeral error when its address is beyond the machine and too
large to be written. -/
theorem enterSite_eq_numeral (hp : t.policy = .known p) (hf : t.frozen = false)
    {err : NumeralError} :
    enterSite settings t (m, d) = .error (.numeral err) ↔
      ∃ e, d.entryIn? m = some e ∧ settings.maxAddress < e.address ∧
        Numeral.isWritable e.address = false ∧ err = .tooLarge := by
  cases he : d.entryIn? m with
  | none =>
    rw [enterSite_of_none he]
    exact iff_of_false (fun h => by cases h) (fun ⟨_, h, _⟩ => by cases h)
  | some e =>
    rw [enterSite_eq he]
    simp only [Option.some.injEq, exists_eq_left']
    split
    · next hmax =>
      unfold addressBeyond
      split
      · next hw => simp only [Except.error.injEq, reduceCtorEq, hw, Bool.true_eq_false, false_and,
          and_false]
      · next hw =>
        rw [Bool.not_eq_true] at hw
        simp only [Except.error.injEq, Failure.numeral.injEq, hmax, hw, true_and, eq_comm]
    · next hmax =>
      refine iff_of_false (fun h => ?_) (fun h => hmax h.1)
      obtain ⟨-, old, -, he⟩ := (SymbolTable.define_eq_error hp hf).1 h
      cases he

/-! ### All definitions -/

/-- Definitions are entered when each is in the machine and the table admits their entries. -/
theorem foldlM_enterSite_eq_ok (hp : t.policy = .known p) (hf : t.frozen = false)
    {sites : List (Module × Definition)} :
    sites.foldlM (enterSite settings) t = .ok t' ↔
      (∀ site ∈ sites, site.2.InMachine settings site.1) ∧
        t.Admits (entriesAt sites) ∧ t.enterAll (entriesAt sites) = t' := by
  -- by induction on the sites, for every open table: a step enters one entry and leaves it open
  induction sites generalizing t with
  | nil =>
    constructor
    · rintro ⟨⟩
      exact ⟨fun _ h => absurd h List.not_mem_nil, SymbolTable.admits_nil _, rfl⟩
    · rintro ⟨-, -, rfl⟩
      rfl
  | cons site sites ih =>
    obtain ⟨m, d⟩ := site
    rw [List.foldlM_cons, bind_eq_ok, List.forall_mem_cons]
    constructor
    · rintro ⟨t₁, h₁, h⟩
      obtain ⟨e, he, hle, hnew, rfl⟩ := (enterSite_eq_ok hp hf).1 h₁
      obtain ⟨hsites, hadm, rfl⟩ := (ih (t := t.enter e) hp hf).1 h
      rw [entriesAt_cons he]
      exact ⟨⟨Definition.inMachine_iff.2 ⟨e, he, hle⟩, hsites⟩,
        SymbolTable.admits_cons.2 ⟨hnew, hadm⟩, rfl⟩
    · rintro ⟨⟨hin, hsites⟩, h⟩
      obtain ⟨e, he, hle⟩ := Definition.inMachine_iff.1 hin
      rw [entriesAt_cons he, SymbolTable.admits_cons] at h
      obtain ⟨⟨hnew, hadm⟩, rfl⟩ := h
      exact ⟨t.enter e, (enterSite_eq_ok hp hf).2 ⟨e, he, hle, hnew, rfl⟩,
        (ih (t := t.enter e) hp hf).2 ⟨hsites, hadm, rfl⟩⟩

end

/-! ### The pass -/

variable {settings : Settings} {s : Store} {t : SymbolTable}

/-- The first pass enters the definitions of the program one after another. -/
theorem result_firstPass (settings : Settings) (s : Store) :
    (firstPass settings s).result =
      (s.definitionSites.foldlM (enterSite settings) (.empty settings.policy)).map
        SymbolTable.freeze := by
  have hd (m : Module) (i : Nat) (t : SymbolTable) (d : Definition) :
      (m.enterDefinition settings i t d).result = enterSite settings t (m, d) := rfl
  have hm (i : Nat) (t : SymbolTable) (m : Module) :
      (m.enterDefinitions settings t).result =
        m.definitions.foldlM (fun t d => enterSite settings t (m, d)) t :=
    result_sweep_of_forall (hd m) 0 t m.definitions
  show Except.map _ _ = _
  rw [result_sweep_of_forall hm, foldlM_flatMap_map, Store.definitionSites]

/-- **The first pass succeeds** when every definition is in the machine and, under `error`, no name
is defined twice; it gives the frozen table of all entries. -/
theorem firstPass_eq_ok (hp : settings.policy.isKnown = true) :
    (firstPass settings s).result = .ok t ↔
      (∀ m ∈ s.modules, ∀ d ∈ m.definitions, d.InMachine settings m) ∧
        (settings.policy = .known .error → (s.entries.map Entry.name).Nodup) ∧
          (SymbolTable.ofEntries settings.policy s.entries).freeze = t := by
  obtain ⟨p, hp⟩ := settings.policy.isKnown_iff.1 hp
  have hsites : (∀ site ∈ s.definitionSites, site.2.InMachine settings site.1) ↔
      ∀ m ∈ s.modules, ∀ d ∈ m.definitions, d.InMachine settings m := by
    constructor
    · intro h m hm d hd
      exact h (m, d) (Store.mem_definitionSites.2 ⟨hm, hd⟩)
    · rintro h ⟨m, d⟩ hs
      exact h m (Store.mem_definitionSites.1 hs).1 d (Store.mem_definitionSites.1 hs).2
  rw [result_firstPass, map_eq_ok, ← hsites]
  constructor
  · rintro ⟨t', ht', rfl⟩
    obtain ⟨hin, hadm, rfl⟩ := (foldlM_enterSite_eq_ok hp rfl).1 ht'
    exact ⟨hin, SymbolTable.admits_empty.1 hadm, rfl⟩
  · rintro ⟨hin, hdistinct, rfl⟩
    have hadm := SymbolTable.admits_empty.2 hdistinct
    exact ⟨_, (foldlM_enterSite_eq_ok hp rfl).2 ⟨hin, hadm, rfl⟩, rfl⟩

/-- A first pass that succeeds has written its address into every definition. -/
theorem reached_firstPass (h : (firstPass settings s).result = .ok t) :
    (firstPass settings s).reached = s.located := by
  obtain ⟨t', h', -⟩ := map_eq_ok.1 h
  refine congrArg Store.mk (reached_sweep (fun i t m t' hm => ?_) h')
  refine congrArg (fun ds => { m with definitions := ds })
    (reached_sweep (fun i t d t' hd => ?_) hm)
  cases he : d.entryIn? m with
  | none => rw [Module.enterDefinition_of_none he] at hd; cases hd
  | some e =>
    rw [Module.enterDefinition_eq he] at hd ⊢
    split at hd
    · cases hd
    · next hmax =>
      rw [if_neg hmax]
      split <;> rfl

/-- The first pass stops with a numeral error when the first definition that it does not enter has
an address beyond the machine that is too large to be written. -/
theorem firstPass_eq_numeral (hp : settings.policy.isKnown = true) :
    (∃ err, (firstPass settings s).result = .error (.numeral err)) ↔
      ∃ pre m d post e, s.definitionSites = pre ++ (m, d) :: post ∧
        (∀ site ∈ pre, site.2.InMachine settings site.1) ∧
          (settings.policy = .known .error → ((entriesAt pre).map Entry.name).Nodup) ∧
            d.entryIn? m = some e ∧ settings.maxAddress < e.address ∧
              Numeral.isWritable e.address = false := by
  obtain ⟨p, hp⟩ := settings.policy.isKnown_iff.1 hp
  simp only [result_firstPass, map_eq_error, foldlM_eq_error]
  constructor
  · rintro ⟨err, pre, ⟨m, d⟩, post, t, hs, hpre, hsite⟩
    obtain ⟨hin, hadm, rfl⟩ := (foldlM_enterSite_eq_ok hp rfl).1 hpre
    obtain ⟨e, he, hmax, hw, -⟩ :=
      (enterSite_eq_numeral ((SymbolTable.policy_enterAll _ _).trans hp)
        (SymbolTable.frozen_enterAll _ _)).1 hsite
    exact ⟨pre, m, d, post, e, hs, hin, SymbolTable.admits_empty.1 hadm, he, hmax, hw⟩
  · rintro ⟨pre, m, d, post, e, hs, hin, hdistinct, he, hmax, hw⟩
    refine ⟨.tooLarge, pre, (m, d), post, _, hs, (foldlM_enterSite_eq_ok hp rfl).2
      ⟨hin, SymbolTable.admits_empty.2 hdistinct, rfl⟩, ?_⟩
    exact (enterSite_eq_numeral ((SymbolTable.policy_enterAll _ _).trans hp)
      (SymbolTable.frozen_enterAll _ _)).2 ⟨e, he, hmax, hw, rfl⟩

end Linkage
