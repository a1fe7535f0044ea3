import Linkage.Proofs.Renumbering

/-!
# Linking — a module with nothing in it

A module without definitions, uses and words has no entries, no instructions and no warnings
(`ofStore_withEmptyAt`).  It has a number, though, so the modules behind it get the next higher ones
(`followedBy_empty`).  As these decide nothing, **an empty module can be put between the modules of
a program**, or before or behind them, and nothing changes besides the numbers.

`link_emptyModule` states this for tokens: the module is written as three zeros.
-/

namespace Linkage

/-- The numbers of modules when one more module gets the number `k`. -/
def stepOver (k i : Nat) : Nat := if i < k then i else i + 1

namespace Store

/-- The program with an empty module at position `k`. -/
def withEmptyAt (k : Nat) (s : Store) : Store :=
  ⟨s.modules.take k ++ { index := k, start := s.startOf k } :: s.modules.drop k⟩

end Store

/-- The result of a link with an empty module at position `k`. -/
def LinkResult.withEmptyAt (k : Nat) (r : LinkResult) : LinkResult :=
  { r with store := r.store.withEmptyAt k }

namespace Store

variable {settings : Settings} {s s' : Store} {k : Nat}

/-! ### What an empty module has no part in -/

theorem forall_mem_withEmptyAt {P : Module → Prop} (hP : ∀ i n, P { index := i, start := n })
    (k : Nat) (s : Store) : (∀ m ∈ (s.withEmptyAt k).modules, P m) ↔ ∀ m ∈ s.modules, P m := by
  rw [withEmptyAt, List.forall_mem_append, List.forall_mem_cons, and_iff_right (hP _ _),
    ← List.forall_mem_append, List.take_append_drop]

theorem flatMap_withEmptyAt {β : Type} {f : Module → List β}
    (hf : ∀ i n, f { index := i, start := n } = []) (k : Nat) (s : Store) :
    (s.withEmptyAt k).modules.flatMap f = s.modules.flatMap f := by
  rw [withEmptyAt, List.flatMap_append, List.flatMap_cons, hf, List.nil_append,
    ← List.flatMap_append, List.take_append_drop]

theorem entries_withEmptyAt (k : Nat) (s : Store) : (s.withEmptyAt k).entries = s.entries :=
  congrArg entriesAt (flatMap_withEmptyAt (fun _ _ => rfl) k s)

theorem definedNames_withEmptyAt (k : Nat) (s : Store) :
    (s.withEmptyAt k).definedNames = s.definedNames :=
  flatMap_withEmptyAt (fun _ _ => rfl) k s

theorem addressOf_withEmptyAt (policy : PolicySetting) (k : Nat) (s : Store) :
    (s.withEmptyAt k).addressOf policy = s.addressOf policy := by
  funext name
  rw [addressOf, entries_withEmptyAt, addressOf]

/-- **A program is linkable** with an empty module when it is without. -/
theorem linkable_withEmptyAt : (s.withEmptyAt k).Linkable settings ↔ s.Linkable settings := by
  have hnames := definedNames_withEmptyAt k s
  have hnone {α : Type} {P : α → Prop} : ∀ a ∈ ([] : List α), P a :=
    fun a ha => absurd ha List.not_mem_nil
  constructor
  · intro hl
    refine ⟨?_, hnames ▸ hl.distinct, ?_, ?_⟩
    · exact (forall_mem_withEmptyAt (fun _ _ => hnone) k s).1 hl.defined
    · exact (forall_mem_withEmptyAt (fun _ _ => hnone) k s).1 (hnames ▸ hl.resolved)
    · exact (forall_mem_withEmptyAt (fun _ _ => hnone) k s).1 hl.relative
  · intro hl
    refine ⟨?_, hnames ▸ hl.distinct, ?_, ?_⟩
    · exact (forall_mem_withEmptyAt (fun _ _ => hnone) k s).2 hl.defined
    · exact (forall_mem_withEmptyAt (fun _ _ => hnone) k s).2 (hnames ▸ hl.resolved)
    · exact (forall_mem_withEmptyAt (fun _ _ => hnone) k s).2 hl.relative

theorem image_withEmptyAt (policy : PolicySetting) (k : Nat) (s : Store) :
    (s.withEmptyAt k).image policy = (s.image policy).withEmptyAt k := by
  have hstart : (s.image policy).startOf k = s.startOf k := by
    rw [startOf, modules_image, ← List.map_take, wordCount_map fun m =>
      Module.length_eq_of_outline (m.outline_linked_located _)]
    rfl
  have hmodules : ((s.withEmptyAt k).image policy).modules =
      ((s.image policy).withEmptyAt k).modules := by
    rw [modules_image, addressOf_withEmptyAt, withEmptyAt, withEmptyAt, hstart, modules_image,
      List.map_append, List.map_cons, List.map_take, List.map_drop]
    rfl
  exact congrArg Store.mk hmodules

end Store

theorem warningsOf_withEmptyAt (settings : Settings) (k : Nat) (s : Store) :
    warningsOf settings (s.withEmptyAt k).modules = warningsOf settings s.modules := by
  have hnames : usedNames (s.withEmptyAt k).modules = usedNames s.modules :=
    Store.flatMap_withEmptyAt (fun _ _ => rfl) k s
  rw [warningsOf, hnames]
  refine Store.flatMap_withEmptyAt (fun i n => ?_) k s
  rw [Module.warnings]
  split <;> rfl

/-- **The link of a program with an empty module** gives the same, with the empty module. -/
theorem ofStore_withEmptyAt (settings : Settings) (k : Nat) (s : Store) :
    LinkResult.ofStore settings (s.withEmptyAt k) =
      (LinkResult.ofStore settings s).withEmptyAt k := by
  have hwords : ((s.image settings.policy).withEmptyAt k).words =
      (s.image settings.policy).words :=
    congrArg (List.map Instruction.word) (Store.flatMap_withEmptyAt (fun _ _ => rfl) k _)
  simp only [LinkResult.ofStore, LinkResult.withEmptyAt, Store.image_withEmptyAt,
    Store.entries_withEmptyAt, warningsOf_withEmptyAt, hwords]

/-! ### An empty module between two programs -/

/-- A module of the second program gets the next higher number. -/
theorem Module.shifted_stepOver (k n : Nat) (m : Module) :
    (m.shifted k n).renumbered (stepOver k) = (m.shifted 1 0).shifted k n := by
  have hindex : stepOver k (m.index + k) = m.index + 1 + k := by
    rw [stepOver, if_neg (Nat.not_lt.2 (Nat.le_add_left _ _)), Nat.add_right_comm]
  simp only [Module.shifted, Module.placedAt, Module.renumbered, hindex, Nat.add_zero]

namespace Store

/-- The modules of the first program keep their numbers. -/
theorem LaidOut.map_stepOver {s : Store} (h : s.LaidOut) :
    s.modules.map (Module.renumbered (stepOver s.count)) = s.modules := by
  refine (List.map_congr_left fun m hm => ?_).trans (List.map_id s.modules)
  obtain ⟨i, hi⟩ := List.mem_iff_getElem?.1 hm
  have hlt : m.index < s.count := (h i m hi).1 ▸ (List.getElem?_eq_some_iff.1 hi).1
  have hindex : stepOver s.count m.index = m.index := if_pos hlt
  rw [Module.renumbered, hindex]
  rfl

/-- An empty module between two programs is an empty module in the program that they are, the
modules behind it with the next higher numbers. -/
theorem followedBy_empty {s : Store} (h : s.LaidOut) (s' : Store) :
    s.followedBy (followedBy ⟨[{}]⟩ s') =
      ((s.followedBy s').renumbered (stepOver s.count)).withEmptyAt s.count := by
  have hmodules : ((s.followedBy s').renumbered (stepOver s.count)).modules = s.modules ++
      s'.modules.map fun m => (m.shifted 1 0).shifted s.count (wordCount s.modules) := by
    show (s.followedBy s').modules.map _ = _
    rw [modules_followedBy, List.map_append, h.map_stepOver, List.map_map]
    exact congrArg (s.modules ++ ·)
      (List.map_congr_left fun m _ => Module.shifted_stepOver _ _ m)
  have hlength : s.modules.length = s.count := rfl
  rw [withEmptyAt, startOf, hmodules, List.take_left' hlength, List.drop_left' hlength, followedBy,
    followedBy, List.map_append, List.map_map]
  refine congrArg (fun m => Store.mk (s.modules ++ m :: _)) ?_
  simp only [Module.shifted, Module.placedAt, Nat.zero_add]

end Store

/-! ### Three zeros -/

variable {settings : Settings} {A B Z : List Token} {sA : Store}

namespace Reading

/-- A zero where a count is due opens a section that is over at once. -/
theorem step_zero {t : Token} (ht : t.text = "0") {r : Reading} (hr : r.state.remaining = 0) :
    r.step settings t = .ok (if r.state.part = .definitions
      then ⟨State.due .definitions 0, some {}, r.finished⟩
      else { r with state := State.due r.state.part 0 }) := by
  have hn : number .invalidCount t r.store.count = .ok 0 := by
    refine number_eq_ok.2 ?_
    rw [Token.chars, ht]
    decide
  rw [step_count hr, hn]
  rfl

theorem run_zeros (settings : Settings) (hZ : Z.map Token.text = ["0", "0", "0"]) :
    run settings {} Z = .ok (afterModule {} .empty) := by
  obtain ⟨t₁, Z₁, rfl, h₁, hZ₁⟩ := List.map_eq_cons_iff.1 hZ
  obtain ⟨t₂, Z₂, rfl, h₂, hZ₂⟩ := List.map_eq_cons_iff.1 hZ₁
  obtain ⟨t₃, Z₃, rfl, h₃, hZ₃⟩ := List.map_eq_cons_iff.1 hZ₂
  obtain rfl := List.map_eq_nil_iff.1 hZ₃
  rw [run, List.foldlM_cons, step_zero h₁ rfl]
  show (step settings ⟨State.beginning .uses, some {}, .empty⟩ t₂ >>= _) = _
  rw [step_zero h₂ rfl]
  show (step settings ⟨State.beginning .instructions, some {}, .empty⟩ t₃ >>= _) = _
  rw [step_zero h₃ rfl]
  rfl

end Reading

/-- Three zeros write an empty module, and end where a count of definitions is awaited. -/
theorem parse_zeros (settings : Settings) (hZ : Z.map Token.text = ["0", "0", "0"]) :
    Store.parse settings Z = .ok ⟨[{}]⟩ ∧ Reading.EndsAtBoundary settings Z := by
  have hrun := Reading.run_zeros settings hZ
  refine ⟨?_, _, hrun, Reading.atBoundary_afterModule _ _⟩
  rw [Store.parse, hrun]
  rfl

variable {r' : LinkResult}

/-- Three zeros between tokens put an empty module into the result of their link. -/
theorem link_zeros (hv : settings.IsValid) (hA : Store.parse settings A = .ok sA)
    (hb : Reading.EndsAtBoundary settings A) (hZ : Z.map Token.text = ["0", "0", "0"]) :
    (link settings (A ++ Z ++ B)).result = .ok r' ↔
      ∃ r, (link settings (A ++ B)).result = .ok r ∧
        (r.renumbered (stepOver sA.count)).withEmptyAt sA.count = r' := by
  obtain ⟨hpZ, hbZ⟩ := parse_zeros settings hZ
  have hlaid := Store.laidOut_of_parse hA
  have hlinkable (sB : Store) : (sA.followedBy (Store.followedBy ⟨[{}]⟩ sB)).Linkable settings ↔
      (sA.followedBy sB).Linkable settings := by
    rw [Store.followedBy_empty hlaid, Store.linkable_withEmptyAt, Store.linkable_renumbered]
  have hresult (sB : Store) :
      LinkResult.ofStore settings (sA.followedBy (Store.followedBy ⟨[{}]⟩ sB)) =
        ((LinkResult.ofStore settings (sA.followedBy sB)).renumbered
          (stepOver sA.count)).withEmptyAt sA.count := by
    rw [Store.followedBy_empty hlaid, ofStore_withEmptyAt, ofStore_renumbered]
  rw [List.append_assoc, link_append_eq_ok hv hA hb]
  constructor
  · rintro ⟨s, hs, hl, rfl⟩
    obtain ⟨sB, hB, rfl⟩ := (Store.parse_append hpZ hbZ).1 hs
    exact ⟨_, (link_append_eq_ok hv hA hb).2 ⟨sB, hB, (hlinkable sB).1 hl, rfl⟩, (hresult sB).symm⟩
  · rintro ⟨r, hr, rfl⟩
    obtain ⟨sB, hB, hl, rfl⟩ := (link_append_eq_ok hv hA hb).1 hr
    exact ⟨_, (Store.parse_append hpZ hbZ).2 ⟨sB, hB, rfl⟩, (hlinkable sB).2 hl, hresult sB⟩

/-- **An empty module is neutral wherever it is put.**  Tokens are accepted and end where a count of
definitions is awaited, and other tokens follow.  With three zeros in between these link exactly when
they do without.  The words, the symbols with their addresses, the address of each name and the
repeated names are then the same.  So are the modules and the warnings, but for the empty module
itself and for the numbers of the modules behind it, which are one higher. -/
theorem link_emptyModule (hv : settings.IsValid) (hA : Store.parse settings A = .ok sA)
    (hb : Reading.EndsAtBoundary settings A) (hZ : Z.map Token.text = ["0", "0", "0"])
    (B : List Token) :
    ((∃ r, (link settings (A ++ Z ++ B)).result = .ok r) ↔
      ∃ r, (link settings (A ++ B)).result = .ok r) ∧
    ∀ r r', (link settings (A ++ B)).result = .ok r →
      (link settings (A ++ Z ++ B)).result = .ok r' →
        r'.memory = r.memory ∧
          (r'.symbols.entries.map fun e => (e.name, e.address)) =
            (r.symbols.entries.map fun e => (e.name, e.address)) ∧
          r'.symbols.addresses = r.symbols.addresses ∧
          r'.symbols.duplicates = r.symbols.duplicates ∧
          r'.store = (r.store.renumbered (stepOver sA.count)).withEmptyAt sA.count ∧
          r'.warnings = r.warnings.map (Warning.renumbered (stepOver sA.count)) := by
  refine ⟨⟨?_, ?_⟩, ?_⟩
  · rintro ⟨r', hr'⟩
    obtain ⟨r, hr, -⟩ := (link_zeros hv hA hb hZ).1 hr'
    exact ⟨r, hr⟩
  · rintro ⟨r, hr⟩
    exact ⟨_, (link_zeros hv hA hb hZ).2 ⟨r, hr, rfl⟩⟩
  · intro r r' hr hr'
    obtain ⟨r₁, hr₁, rfl⟩ := (link_zeros hv hA hb hZ).1 hr'
    cases hr.symm.trans hr₁
    exact ⟨rfl, List.map_map, r.symbols.addresses_renumbered, r.symbols.duplicates_renumbered, rfl,
      rfl⟩

/-- A module that uses a symbol of a module behind it. -/
def usesBehind : List Token := Token.inLine ["0", "1", "z", "2", "R", "1001", "E", "2000"]

/-- The module that `usesBehind` writes. -/
def usesBehindModule : Module where
  uses := [⟨"z", some ⟨"-", 1, 3⟩⟩]
  instructions := [.fresh .relative 1 1 (some ⟨"-", 1, 6⟩), .fresh .external 2 0 (some ⟨"-", 1, 8⟩)]

/-- A module that defines that symbol and one that nobody uses. -/
def definesTwo : List Token := Token.inLine ["2", "z", "0", "q", "0", "0", "1", "A", "4005"]

/-- Between a use and the definition it refers to, only the warning tells of the empty module. -/
theorem link_emptyModule_betweenUseAndDefinition :
    Settings.IsValid {} ∧ Store.parse {} usesBehind = .ok ⟨[usesBehindModule]⟩ ∧
      Reading.EndsAtBoundary {} usesBehind ∧
        ∃ r, (link {} (usesBehind ++ Token.inLine ["0", "0", "0"] ++ definesTwo)).result = .ok r ∧
          r.memory.words = [1001, 2002, 4005] ∧ r.warnings = [.neverUsed 2 "q"] := by
  have hv : Settings.IsValid {} := by decide
  have hA : Store.parse {} usesBehind = .ok ⟨[usesBehindModule]⟩ := by rfl
  have hb : Reading.EndsAtBoundary {} usesBehind :=
    ⟨Reading.afterModule usesBehindModule .empty, rfl, Reading.atBoundary_afterModule _ _⟩
  have hwithout : (link {} (usesBehind ++ definesTwo)).result.map
      (fun r => (r.memory.words, r.warnings)) = .ok ([1001, 2002, 4005], [.neverUsed 1 "q"]) := by
    rfl
  obtain ⟨r, hr, hrw⟩ := map_eq_ok.1 hwithout
  obtain ⟨hwords, hwarnings⟩ := Prod.mk.inj hrw
  obtain ⟨hlinks, hall⟩ :=
    link_emptyModule (Z := Token.inLine ["0", "0", "0"]) hv hA hb rfl definesTwo
  obtain ⟨r', hr'⟩ := hlinks.2 ⟨r, hr⟩
  obtain ⟨hmemory, -, -, -, -, hwarnings'⟩ := hall r r' hr hr'
  rw [hwarnings] at hwarnings'
  exact ⟨hv, hA, hb, r', hr', hmemory ▸ hwords, hwarnings'⟩

end Linkage
