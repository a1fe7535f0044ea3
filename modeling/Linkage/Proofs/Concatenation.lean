import Linkage.Proofs.Link

/-!
# Linking — programs that follow one another

Behind another program a program links to the same words, shifted.  A module that starts `n` words
later gives entries at addresses `n` higher (`Module.shifted`, `Entry.shifted`), and its relative
and external instructions get addresses `n` higher (`Instruction.shifted`).

Where no name is defined in both of two programs, each name stands in the two together for what it
stands for alone, shifted when it is a name of the second (`addressOf_followedBy_left`,
`addressOf_followedBy_right`).  So the two together are linkable when the shifted addresses of the
second are addresses of the machine (`linkable_followedBy`), and their image is the image of the
first, followed by the shifted image of the second (`instructions_image_followedBy`).

`link_append` states this for the tokens of two programs.
-/

namespace Linkage

/-! ### Shifting -/

/-- The entry behind `k` further modules with `n` words. -/
def Entry.shifted (k n : Nat) (e : Entry) : Entry :=
  { e with address := e.address + n, moduleIndex := e.moduleIndex + k }

/-- The address of an instruction behind `n` further words. -/
def Classification.shift (c : Classification) (n : Nat) (a : Int) : Int :=
  if c.isRelocatable then a + n else a

/-- The linked instruction behind `n` further words. -/
def Instruction.shifted (n : Nat) (x : Instruction) : Instruction :=
  { x with address := x.classification.shift n x.address }

theorem Definition.entryIn?_shifted (k n : Nat) (m : Module) (d : Definition) :
    d.entryIn? (m.shifted k n) = (d.entryIn? m).map (Entry.shifted k n) := by
  unfold entryIn?
  rw [Option.map_map]
  refine congrArg (fun f => d.relative.map f) (funext fun offset => ?_)
  simp only [Module.shifted, Module.placedAt, Function.comp_apply, Entry.shifted, Int.natCast_add,
    Int.add_assoc]

theorem Instruction.word_shifted (n : Nat) (x : Instruction) :
    (x.shifted n).word = if x.classification.isRelocatable then x.word + n else x.word := by
  unfold word shifted Classification.shift
  split
  · exact (Int.add_assoc _ _ _).symm
  · rfl

namespace Store

variable {settings : Settings} {policy : PolicySetting} {s s' : Store} {m : Module}
  {x : Instruction} {name : String}

/-! ### Names of two programs -/

theorem entries_followedBy (s s' : Store) :
    (s.followedBy s').entries =
      s.entries ++ s'.entries.map (Entry.shifted s.count (wordCount s.modules)) := by
  have happ : definitionSites (s.followedBy s') = definitionSites s ++
      definitionSites ⟨s'.modules.map (Module.shifted s.count (wordCount s.modules))⟩ :=
    List.flatMap_append
  rw [entries, happ, entriesAt, List.filterMap_append]
  exact congrArg (s.entries ++ ·)
    (entries_map (φ := Module.shifted _ _) (fun _ => (List.map_id _).symm)
      (Definition.entryIn?_shifted _ _) s'.modules)

theorem definedNames_followedBy (s s' : Store) :
    (s.followedBy s').definedNames = s.definedNames ++ s'.definedNames := by
  rw [definedNames, modules_followedBy, List.flatMap_append, List.flatMap_map]
  rfl

/-- No name is defined in both programs. -/
def DisjointNames (s s' : Store) : Prop := ∀ e ∈ s.entries, ∀ e' ∈ s'.entries, e.name ≠ e'.name

theorem entriesNamed_shifted (k n : Nat) (name : String) (es : List Entry) :
    entriesNamed name (es.map (Entry.shifted k n)) =
      (entriesNamed name es).map (Entry.shifted k n) :=
  entriesNamed_map (f := Entry.shifted k n) (fun _ => rfl) name es

/-- A name of the first program stands for what it stands for there. -/
theorem addressOf_followedBy_left (h : s.AsRead settings) (hd : s.DisjointNames s')
    (hn : name ∈ s.definedNames) :
    (s.followedBy s').addressOf policy name = s.addressOf policy name := by
  rw [← h.map_name_entries] at hn
  obtain ⟨e, he, rfl⟩ := List.mem_map.1 hn
  have hnone : entriesNamed e.name s'.entries = [] :=
    entriesNamed_eq_nil.2 fun e' he' heq => hd e he e' he' heq.symm
  rw [addressOf, entries_followedBy, entriesNamed_append, entriesNamed_shifted, hnone, List.map_nil,
    List.append_nil, addressOf]

/-- A name of the second program stands for what it stands for there, shifted. -/
theorem addressOf_followedBy_right (h : s'.AsRead settings) (hd : s.DisjointNames s')
    (hn : name ∈ s'.definedNames) :
    (s.followedBy s').addressOf policy name =
      (s'.addressOf policy name).map (· + (wordCount s.modules : Int)) := by
  rw [← h.map_name_entries] at hn
  obtain ⟨e', he', rfl⟩ := List.mem_map.1 hn
  have hnone : entriesNamed e'.name s.entries = [] :=
    entriesNamed_eq_nil.2 fun e he heq => hd e he e' he' heq
  rw [addressOf, entries_followedBy, entriesNamed_append, entriesNamed_shifted, hnone,
    List.nil_append, PolicySetting.choose_map, Option.map_map, addressOf, Option.map_map]
  rfl

/-! ### Final addresses in two programs -/

theorem Linkable.finalAddress?_followedBy_left (hl : s.Linkable settings) (h : s.AsRead settings)
    (hd : s.DisjointNames s') (hm : m ∈ s.modules) (hx : x ∈ m.instructions) :
    m.finalAddress? ((s.followedBy s').addressOf policy) x =
      m.finalAddress? (s.addressOf policy) x :=
  hl.finalAddress?_congr (fun _ hn => addressOf_followedBy_left h hd hn) hm hx

theorem Linkable.finalAddress?_followedBy_right (hl : s'.Linkable settings) (h : s'.AsRead settings)
    (hd : s.DisjointNames s') (hm : m ∈ s'.modules) (hx : x ∈ m.instructions) :
    (m.shifted s.count (wordCount s.modules)).finalAddress? ((s.followedBy s').addressOf policy) x =
      (m.finalAddress? (s'.addressOf policy) x).map
        (x.classification.shift (wordCount s.modules)) := by
  unfold Module.finalAddress?
  cases hk : x.classification with
  | immediate => rfl
  | absolute => rfl
  | relative =>
    simp only [Module.shifted, Module.placedAt, Option.map_some, Classification.shift,
      Classification.isRelocatable, if_true, Int.natCast_add, Int.add_assoc]
  | external =>
    obtain ⟨k, u, hxk, hu, hn⟩ := hl.resolved m hm x hx hk
    simp only [Module.shifted, Module.placedAt, hxk, elementAt?_natCast, hu, Option.bind_some]
    exact addressOf_followedBy_right h hd hn

/-! ### Two programs together -/

/-- The linked instructions of a program are those of its modules, linked. -/
theorem instructions_image (policy : PolicySetting) (s : Store) :
    (s.image policy).instructions =
      s.modules.flatMap fun m => m.instructions.map (m.linkedInstruction (s.addressOf policy)) := by
  rw [instructions, image, linked, located, List.flatMap_map, List.flatMap_map]
  rfl

/-- **The image of two programs** is the image of the first, and behind it that of the second,
shifted. -/
theorem instructions_image_followedBy (hl : s.Linkable settings) (hl' : s'.Linkable settings)
    (h : s.AsRead settings) (h' : s'.AsRead settings) (hd : s.DisjointNames s') :
    ((s.followedBy s').image settings.policy).instructions =
      (s.image settings.policy).instructions ++
        (s'.image settings.policy).instructions.map
          (Instruction.shifted (wordCount s.modules)) := by
  rw [instructions_image, instructions_image, instructions_image, modules_followedBy,
    List.flatMap_append, List.flatMap_map, List.map_flatMap]
  congr 1
  -- an instruction keeps its address in the first program and is shifted in the second
  · rw [List.flatMap_def, List.flatMap_def]
    refine congrArg List.flatten (List.map_congr_left fun m hm => ?_)
    refine List.map_congr_left fun x hx => ?_
    rw [Module.linkedInstruction, Module.linkedInstruction,
      hl.finalAddress?_followedBy_left h hd hm hx]
  · rw [List.flatMap_def, List.flatMap_def]
    refine congrArg List.flatten (List.map_congr_left fun m hm => ?_)
    rw [List.map_map]
    refine List.map_congr_left fun x hx => ?_
    obtain ⟨a, ha, -, -⟩ := hl'.links h' hm hx
    rw [Function.comp_apply, Module.linkedInstruction, Module.linkedInstruction,
      hl'.finalAddress?_followedBy_right h' hd hm hx, ha]
    rfl

/-- The entries of a program are in the machine when its definitions are. -/
theorem AsRead.forall_inMachine_shifted (h : s.AsRead settings) (k n : Nat) :
    (∀ m ∈ s.modules, ∀ d ∈ m.definitions, d.InMachine settings (m.shifted k n)) ↔
      ∀ e ∈ s.entries, e.address + n ≤ settings.maxAddress := by
  constructor
  · intro hin e he
    obtain ⟨m, hm, d, hdm, hde⟩ := mem_entries.1 he
    obtain ⟨e', he', hle⟩ := Definition.inMachine_iff.1 (hin m hm d hdm)
    rw [Definition.entryIn?_shifted, hde] at he'
    cases he'
    exact hle
  · intro hle m hm d hdm
    obtain ⟨offset, ho⟩ := h.offset m hm d hdm
    have hde := Definition.entryIn?_of_relative m ho
    refine Definition.inMachine_iff.2 ⟨_, by rw [Definition.entryIn?_shifted, hde]; rfl, ?_⟩
    exact hle _ (mem_entries.2 ⟨m, hm, d, hdm, hde⟩)

/-- The linked relative instructions of a program stay in the machine behind `n` further words when
its relative instructions do. -/
theorem forall_relative_shifted (policy : PolicySetting) (s : Store) (k n : Nat) :
    (∀ m ∈ s.modules, ∀ x ∈ m.instructions, x.classification = .relative →
        x.address + (m.shifted k n).start ≤ settings.maxAddress) ↔
      ∀ x ∈ (s.image policy).instructions, x.classification = .relative →
        x.address + n ≤ settings.maxAddress := by
  have hfinal (m : Module) (x : Instruction) (hk : x.classification = .relative) :
      (m.linkedInstruction (s.addressOf policy) x).address + n =
        x.address + (m.shifted k n).start := by
    rw [Module.linkedInstruction, Module.finalAddress?, hk]
    simp only [Instruction.linkedAt, Option.getD_some, Module.shifted, Module.placedAt,
      Int.natCast_add, Int.add_assoc]
  rw [instructions_image]
  constructor
  · intro hle y hy hk
    obtain ⟨m, hm, hym⟩ := List.mem_flatMap.1 hy
    obtain ⟨x, hx, rfl⟩ := List.mem_map.1 hym
    rw [hfinal m x hk]
    exact hle m hm x hx hk
  · intro hle m hm x hx hk
    rw [← hfinal m x hk]
    exact hle _ (List.mem_flatMap.2 ⟨m, hm, List.mem_map_of_mem hx⟩) hk

/-- **Two programs together are linkable** when the shifted addresses of the second are addresses of
the machine. -/
theorem linkable_followedBy (hl : s.Linkable settings) (hl' : s'.Linkable settings)
    (h : s.AsRead settings) (h' : s'.AsRead settings) (hd : s.DisjointNames s') :
    (s.followedBy s').Linkable settings ↔
      (∀ e ∈ s'.entries, e.address + (wordCount s.modules : Nat) ≤ settings.maxAddress) ∧
        ∀ x ∈ (s'.image settings.policy).instructions, x.classification = .relative →
          x.address + (wordCount s.modules : Nat) ≤ settings.maxAddress := by
  rw [← h'.forall_inMachine_shifted s.count, ← forall_relative_shifted settings.policy s' s.count]
  constructor
  · intro hf
    refine ⟨fun m hm => ?_, fun m hm => ?_⟩
    · exact hf.defined (m.shifted _ _) (List.mem_append_right _ (List.mem_map_of_mem hm))
    · exact hf.relative (m.shifted _ _) (List.mem_append_right _ (List.mem_map_of_mem hm))
  · rintro ⟨hdef, hrel⟩
    refine ⟨?_, fun hp => ?_, ?_, ?_⟩
    · exact List.forall_mem_append.2 ⟨hl.defined, List.forall_mem_map.2 hdef⟩
    · rw [definedNames_followedBy, List.nodup_append]
      refine ⟨hl.distinct hp, hl'.distinct hp, fun name hn name' hn' => ?_⟩
      rw [← h.map_name_entries] at hn
      rw [← h'.map_name_entries] at hn'
      obtain ⟨e, he, rfl⟩ := List.mem_map.1 hn
      obtain ⟨e', he', rfl⟩ := List.mem_map.1 hn'
      exact hd e he e' he'
    · rw [definedNames_followedBy]
      refine List.forall_mem_append.2 ⟨fun m hm x hx hk => ?_,
        List.forall_mem_map.2 fun m hm x hx hk => ?_⟩
      · obtain ⟨k, u, hxk, hu, hn⟩ := hl.resolved m hm x hx hk
        exact ⟨k, u, hxk, hu, List.mem_append_left _ hn⟩
      · obtain ⟨k, u, hxk, hu, hn⟩ := hl'.resolved m hm x hx hk
        exact ⟨k, u, hxk, hu, List.mem_append_right _ hn⟩
    · exact List.forall_mem_append.2 ⟨hl.relative, List.forall_mem_map.2 hrel⟩

end Store

/-! ### Linking two programs -/

variable {settings : Settings} {A B : List Token} {rA rB : LinkResult}

/-- **Linking is position independent.**  Two token lists link, the first ends where a count of
definitions is awaited, and no name is defined in both.  Behind the words of the first, the second
links exactly when the addresses of its definitions and of its relative instructions stay in the
machine.  The words are then those of the first and those of the second, where the number of words
of the first is added to relative and external ones; the symbols are shifted likewise. -/
theorem link_append (hv : settings.IsValid) (hA : (link settings A).result = .ok rA)
    (hB : (link settings B).result = .ok rB) (hb : Reading.EndsAtBoundary settings A)
    (hd : ∀ e ∈ rA.symbols.entries, ∀ e' ∈ rB.symbols.entries, e.name ≠ e'.name) :
    ((∃ r, (link settings (A ++ B)).result = .ok r) ↔
      (∀ e ∈ rB.symbols.entries, e.address + rA.memory.size ≤ settings.maxAddress) ∧
        ∀ x ∈ rB.store.instructions, x.classification = .relative →
          x.address + rA.memory.size ≤ settings.maxAddress) ∧
    ∀ r, (link settings (A ++ B)).result = .ok r →
      rB.memory.words = rB.store.instructions.map Instruction.word ∧
        r.memory.words = rA.memory.words ++ rB.store.instructions.map (fun x =>
          if x.classification.isRelocatable then x.word + rA.memory.size else x.word) ∧
          r.symbols.entries = rA.symbols.entries ++
            rB.symbols.entries.map (Entry.shifted rA.store.count rA.memory.size) := by
  obtain ⟨sA, hpA, hlA, rfl⟩ := (link_eq_ok hv).1 hA
  obtain ⟨sB, hpB, hlB, rfl⟩ := (link_eq_ok hv).1 hB
  have hsize : (LinkResult.ofStore settings sA).memory.size = wordCount sA.modules :=
    (sA.size_words_image settings.policy).trans sA.totalLength_eq_wordCount
  have hcount : (LinkResult.ofStore settings sA).store.count = sA.count :=
    (List.length_map _).trans (List.length_map _)
  have hentries (s : Store) : (LinkResult.ofStore settings s).symbols.entries = s.entries :=
    SymbolTable.entries_ofEntries settings.policy s.entries
  -- reading is settled here: the tokens together write the one program and behind it the other
  have hlink (r : LinkResult) : (link settings (A ++ B)).result = .ok r ↔
      (sA.followedBy sB).Linkable settings ∧
        LinkResult.ofStore settings (sA.followedBy sB) = r := by
    rw [link_eq_ok hv]
    constructor
    · rintro ⟨s, hs, hl, rfl⟩
      obtain ⟨s₂, hs₂, rfl⟩ := (Store.parse_append hpA hb).1 hs
      cases hpB.symm.trans hs₂
      exact ⟨hl, rfl⟩
    · rintro ⟨hl, rfl⟩
      exact ⟨_, (Store.parse_append hpA hb).2 ⟨sB, hpB, rfl⟩, hl, rfl⟩
  rw [hentries, hentries] at hd
  have hfA := Store.asRead_of_parse hpA
  have hfB := Store.asRead_of_parse hpB
  rw [hsize, hcount, hentries, hentries]
  refine ⟨?_, fun r hr => ?_⟩
  · refine Iff.trans ?_ (Store.linkable_followedBy hlA hlB hfA hfB hd)
    constructor
    · rintro ⟨r, hr⟩
      exact ((hlink r).1 hr).1
    · intro hl
      exact ⟨_, (hlink _).2 ⟨hl, rfl⟩⟩
  · obtain ⟨-, rfl⟩ := (hlink r).1 hr
    refine ⟨rfl, ?_, (hentries _).trans (Store.entries_followedBy sA sB)⟩
    have himage := Store.instructions_image_followedBy hlA hlB hfA hfB hd
    show ((sA.followedBy sB).image settings.policy).instructions.map Instruction.word = _
    rw [himage, List.map_append, List.map_map]
    refine congrArg (_ ++ ·) (List.map_congr_left fun x _ => ?_)
    exact Instruction.word_shifted _ x

/-- One module that defines a symbol of its own. -/
def ownSymbol : List Token := Token.inLine ["1", "a", "0", "0", "1", "R", "1000"]

/-- The module that `ownSymbol` writes. -/
def ownSymbolModule : Module where
  definitions := [.fresh "a" (some 0) (some ⟨"-", 1, 2⟩)]
  instructions := [.fresh .relative 1 0 (some ⟨"-", 1, 7⟩)]

theorem link_append_forwardUse :
    Settings.IsValid {} ∧
      ∃ rA rB, (link {} ownSymbol).result = .ok rA ∧ (link {} forwardUse).result = .ok rB ∧
        Reading.EndsAtBoundary {} ownSymbol ∧
          (∀ e ∈ rA.symbols.entries, ∀ e' ∈ rB.symbols.entries, e.name ≠ e'.name) ∧
            ∃ r, (link {} (ownSymbol ++ forwardUse)).result = .ok r ∧
              r.memory.words = [1000, 1002, 2003, 4005] := by
  have hv : Settings.IsValid {} := by decide
  have hA : (link {} ownSymbol).result = .ok (.ofStore {} ⟨[ownSymbolModule]⟩) := by rfl
  have hB : (link {} forwardUse).result = .ok (.ofStore {} forwardUseStore) := by rfl
  have hb : Reading.EndsAtBoundary {} ownSymbol :=
    ⟨Reading.afterModule ownSymbolModule .empty, rfl, Reading.atBoundary_afterModule _ _⟩
  have hd : ∀ e ∈ (LinkResult.ofStore {} ⟨[ownSymbolModule]⟩).symbols.entries,
      ∀ e' ∈ (LinkResult.ofStore {} forwardUseStore).symbols.entries, e.name ≠ e'.name := by decide
  obtain ⟨hlinks, hall⟩ := link_append hv hA hB hb hd
  obtain ⟨r, hr⟩ := hlinks.2 (by decide)
  refine ⟨hv, _, _, hA, hB, hb, hd, r, hr, ?_⟩
  rw [(hall r hr).2.1]
  rfl

end Linkage
