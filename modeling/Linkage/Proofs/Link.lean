import Linkage.Link
import Linkage.Proofs.Pass.Definitions
import Linkage.Proofs.Pass.Instructions
import Linkage.Proofs.Reading.Acceptance

/-!
# Linking — when a program links, and to what

What linking means is said without passes and without changing anything.  `Store.addressOf` is the
address of a name: that of its first or its last definition, as the policy chooses.
`Store.Linkable` lists what a program must satisfy, `Store.image` is the program with all addresses
in place, and `LinkResult.ofStore` is everything a link gives.

* `AsRead.linkable_iff`: what makes a program linkable is what the passes check of it.
* `link_eq_ok`: a link succeeds when its tokens are accepted and the program is linkable, and gives
  `LinkResult.ofStore`.
* `link_eq_error`: it fails with the failure of the first stage that fails.
* `getElem?_words_image`: the word at a position of the image is that of the instruction there, its
  address the final one.
* `link_correct` states both for a program that has been accepted.
-/

namespace Linkage

/-! ### What a link gives -/

namespace Store

/-- The names that are defined in a program, in order. -/
def definedNames (s : Store) : List String :=
  s.modules.flatMap fun m => m.definitions.map Definition.name

/-- The address that a name stands for: that of the definition the policy chooses. -/
def addressOf (policy : PolicySetting) (s : Store) (name : String) : Option Int :=
  (policy.choose (entriesNamed name s.entries)).map Entry.address

/-- What a program must satisfy to link. -/
structure Linkable (settings : Settings) (s : Store) : Prop where
  /-- Every definition lies at an address of the machine. -/
  defined : ∀ m ∈ s.modules, ∀ d ∈ m.definitions, d.InMachine settings m
  /-- Where a repeated definition is an error there is none. -/
  distinct : settings.policy = .known .error → s.definedNames.Nodup
  /-- Every external instruction picks a use of its module, and a module defines the name. -/
  resolved : ∀ m ∈ s.modules, ∀ x ∈ m.instructions, x.classification = .external →
    ∃ (k : Nat) (u : Use), x.address = k ∧ m.uses[k]? = some u ∧ u.name ∈ s.definedNames
  /-- Every relative instruction has an address of the machine. -/
  relative : ∀ m ∈ s.modules, ∀ x ∈ m.instructions, x.classification = .relative →
    x.address + m.start ≤ settings.maxAddress

/-- The program with the addresses of its definitions and its instructions. -/
def image (policy : PolicySetting) (s : Store) : Store := s.located.linked (s.addressOf policy)

end Store

/-- Everything that the link of a program gives. -/
def LinkResult.ofStore (settings : Settings) (s : Store) : LinkResult where
  store := s.image settings.policy
  symbols := (SymbolTable.ofEntries settings.policy s.entries).freeze
  memory := ⟨(s.image settings.policy).words⟩
  warnings := warningsOf settings (s.image settings.policy).modules

/-! ### Entries and names -/

namespace Store

variable {settings : Settings} {policy : PolicySetting} {s : Store} {name : String}

theorem mem_entries {s : Store} {e : Entry} :
    e ∈ s.entries ↔ ∃ m ∈ s.modules, ∃ d ∈ m.definitions, d.entryIn? m = some e := by
  unfold entries entriesAt
  rw [List.mem_filterMap]
  constructor
  · rintro ⟨⟨m, d⟩, hs, he⟩
    exact ⟨m, (mem_definitionSites.1 hs).1, d, (mem_definitionSites.1 hs).2, he⟩
  · rintro ⟨m, hm, d, hd, he⟩
    exact ⟨(m, d), mem_definitionSites.2 ⟨hm, hd⟩, he⟩

/-- Where modules are changed, and their definitions one by one, a change of the entries says what
becomes of the names and the addresses. -/
theorem entries_map {φ : Module → Module} {χ : Definition → Definition} {g : Entry → Entry}
    (hφ : ∀ m, (φ m).definitions = m.definitions.map χ)
    (hg : ∀ m d, (χ d).entryIn? (φ m) = (d.entryIn? m).map g) (ms : List Module) :
    entries ⟨ms.map φ⟩ = (entries ⟨ms⟩).map g := by
  rw [entries, definitionSites_map hφ, entriesAt, List.filterMap_map, entries, entriesAt,
    List.map_filterMap]
  exact congrArg (fun h => List.filterMap h _) (funext fun site => hg site.1 site.2)

/-- Every definition of a program as it is read has its entry. -/
theorem AsRead.map_name_entries (h : s.AsRead settings) :
    s.entries.map Entry.name = s.definedNames := by
  have hn : (s.definitionSites.map fun site => site.2.name) = s.definedNames := by
    rw [definitionSites, List.map_flatMap]
    exact congrArg (fun f => s.modules.flatMap f) (funext fun m => List.map_map)
  rw [← hn, entries]
  exact map_name_entriesAt fun site hs =>
    h.relative_ne_none _ (mem_definitionSites.1 hs).1 _ (mem_definitionSites.1 hs).2

theorem addressOf_ofEntries (policy : PolicySetting) (s : Store) :
    (SymbolTable.ofEntries policy s.entries).freeze.addressOf = s.addressOf policy := by
  funext name
  exact congrArg (Option.map Entry.address) (SymbolTable.lookup_ofEntries policy s.entries name)

theorem isSome_addressOf (h : s.AsRead settings) :
    (s.addressOf policy name).isSome = true ↔ name ∈ s.definedNames := by
  rw [addressOf, Option.isSome_map, ← h.map_name_entries, List.mem_map]
  constructor
  · intro hs
    obtain ⟨e, he⟩ := Option.isSome_iff_exists.1 hs
    obtain ⟨hmem, hname⟩ := List.mem_filter.1 (PolicySetting.mem_of_choose he)
    exact ⟨e, hmem, eq_of_beq hname⟩
  · rintro ⟨e, hmem, rfl⟩
    rw [Option.isSome_iff_ne_none]
    intro hnone
    exact entriesNamed_eq_nil.1 (PolicySetting.choose_eq_none.1 hnone) e hmem rfl

/-- A name stands for the address of an entry. -/
theorem exists_of_addressOf {a : Int} (h : s.addressOf policy name = some a) :
    ∃ e ∈ s.entries, e.address = a := by
  obtain ⟨e, he, rfl⟩ := Option.map_eq_some_iff.1 h
  exact ⟨e, (List.mem_filter.1 (PolicySetting.mem_of_choose he)).1, rfl⟩

/-- Where every definition is in the machine, names stand for addresses of the machine. -/
theorem addressOf_le (hd : ∀ m ∈ s.modules, ∀ d ∈ m.definitions, d.InMachine settings m) {a : Int}
    (h : s.addressOf policy name = some a) : a ≤ settings.maxAddress := by
  obtain ⟨e, he, rfl⟩ := exists_of_addressOf h
  obtain ⟨m, hm, d, hdm, hde⟩ := mem_entries.1 he
  obtain ⟨e', he', hle⟩ := Definition.inMachine_iff.1 (hd m hm d hdm)
  cases hde.symm.trans he'
  exact hle

/-! ### The instructions of a program that links -/

/-- An external instruction gets an address of the machine when it is resolved. -/
theorem AsRead.links_external (h : s.AsRead settings)
    (hd : ∀ m ∈ s.modules, ∀ d ∈ m.definitions, d.InMachine settings m)
    {m : Module} (hm : m ∈ s.modules) {x : Instruction} (hx : x ∈ m.instructions)
    (hk : x.classification = .external) :
    m.Links settings (s.addressOf policy) x ↔
      ∃ (k : Nat) (u : Use), x.address = k ∧ m.uses[k]? = some u ∧ u.name ∈ s.definedNames := by
  unfold Module.Links Module.finalAddress?
  rw [hk]
  constructor
  · rintro ⟨a, ha, -, -⟩
    obtain ⟨k, hxk, -⟩ := h.address m hm x hx
    obtain ⟨u, hu, hua⟩ := Option.bind_eq_some_iff.1 ha
    rw [hxk, elementAt?_natCast] at hu
    exact ⟨k, u, hxk, hu, (isSome_addressOf h).1 (Option.isSome_of_eq_some hua)⟩
  · rintro ⟨k, u, hxk, hu, hname⟩
    -- the address is that of a definition, so it is in the machine with all of them
    obtain ⟨a, ha⟩ := Option.isSome_iff_exists.1 ((isSome_addressOf h).2 hname)
    refine ⟨a, ?_, addressOf_le hd ha, fun _ => h.relocated m hm x hx⟩
    rw [hxk, elementAt?_natCast, hu]
    exact ha

/-- **A program as it is read is linkable** when its definitions are in the machine, the table
admits their entries, and every instruction links. -/
theorem AsRead.linkable_iff (h : s.AsRead settings) :
    s.Linkable settings ↔
      (∀ m ∈ s.modules, ∀ d ∈ m.definitions, d.InMachine settings m) ∧
        (settings.policy = .known .error → (s.entries.map Entry.name).Nodup) ∧
          ∀ m ∈ s.modules, ∀ x ∈ m.instructions,
            m.Links settings (s.addressOf settings.policy) x := by
  rw [h.map_name_entries]
  constructor
  · intro hl
    refine ⟨hl.defined, hl.distinct, fun m hm x hx => ?_⟩
    obtain ⟨a, hxa, ha⟩ := h.address m hm x hx
    cases hk : x.classification with
    | external => exact (h.links_external hl.defined hm hx hk).2 (hl.resolved m hm x hx hk)
    | immediate =>
      exact ⟨x.address, by rw [Module.finalAddress?, hk], hxa ▸ ha, fun _ => h.relocated m hm x hx⟩
    | absolute =>
      exact ⟨x.address, by rw [Module.finalAddress?, hk], hxa ▸ ha, fun _ => h.relocated m hm x hx⟩
    | relative =>
      exact ⟨_, by rw [Module.finalAddress?, hk], hl.relative m hm x hx hk,
        fun _ => h.relocated m hm x hx⟩
  · rintro ⟨hd, hdistinct, hlinks⟩
    refine ⟨hd, hdistinct, fun m hm x hx hk => ?_, fun m hm x hx hk => ?_⟩
    · exact (h.links_external hd hm hx hk).1 (hlinks m hm x hx)
    · obtain ⟨a, ha, hle, -⟩ := hlinks m hm x hx
      rw [Module.finalAddress?, hk] at ha
      cases ha
      exact hle

/-- The instructions of a linkable program refer to names that it defines, so their addresses are a
matter of what these stand for. -/
theorem Linkable.finalAddress?_congr (hl : s.Linkable settings) {f g : String → Option Int}
    (hfg : ∀ name ∈ s.definedNames, f name = g name) {m : Module} (hm : m ∈ s.modules)
    {x : Instruction} (hx : x ∈ m.instructions) : m.finalAddress? f x = m.finalAddress? g x := by
  refine Module.finalAddress?_congr fun hk u hu => ?_
  obtain ⟨k, u', hxk, hu', hn⟩ := hl.resolved m hm x hx hk
  rw [hxk, elementAt?_natCast] at hu
  cases hu'.symm.trans hu
  exact hfg u.name hn

/-- The instructions of a linkable program link. -/
theorem Linkable.links (hl : s.Linkable settings) (h : s.AsRead settings) {m : Module}
    (hm : m ∈ s.modules) {x : Instruction} (hx : x ∈ m.instructions) :
    m.Links settings (s.addressOf settings.policy) x :=
  (h.linkable_iff.1 hl).2.2 m hm x hx

end Store

/-! ### Linking -/

variable {settings : Settings} {tokens : List Token} {s : Store} {r : LinkResult}

/-- The result of a link, stage by stage. -/
theorem result_link (settings : Settings) (tokens : List Token) :
    (link settings tokens).result = (do
      let s ← Store.parse settings tokens
      let t ← (firstPass settings s).result
      let pass := secondPass settings (firstPass settings s).reached t
      let w ← pass.result
      let ws ← (collectWarnings settings pass.reached.modules).result
      return ⟨pass.reached, t, w, ws⟩) := by
  unfold link
  rw [Run.result_bind]
  refine congrArg (Except.bind _) (funext fun s => ?_)
  rw [Run.result_bind, Outcome.run]
  cases (firstPass settings s).result with
  | error e => rfl
  | ok t =>
    show ((secondPass settings (firstPass settings s).reached t).run >>= _).result =
      (secondPass settings (firstPass settings s).reached t).result.bind _
    rw [Run.result_bind, Outcome.run]
    cases (secondPass settings (firstPass settings s).reached t).result with
    | error e => rfl
    | ok w =>
      show (collectWarnings settings _ >>= _).result = (collectWarnings settings _).result.bind _
      rw [Run.result_bind]
      rfl

/-- Every definition of a program as it is read has an offset. -/
theorem Store.AsRead.hasOffsets (h : s.AsRead settings) :
    s.modules.all Module.hasOffsets = true := by
  refine List.all_eq_true.2 fun m hm => List.all_eq_true.2 fun d hd => ?_
  obtain ⟨n, hn⟩ := h.offset m hm d hd
  rw [hn]
  rfl

/-- The image of a program has the offsets of the program. -/
theorem Store.AsRead.hasOffsets_image (h : s.AsRead settings) (policy : PolicySetting) :
    (s.image policy).modules.all Module.hasOffsets = true := by
  refine List.all_eq_true.2 fun m hm => ?_
  obtain ⟨m₁, hm₁, rfl⟩ := List.mem_map.1 hm
  obtain ⟨m₀, hm₀, rfl⟩ := List.mem_map.1 hm₁
  refine List.all_map.trans ((congrArg m₀.definitions.all (funext fun d => ?_)).trans
    (List.all_eq_true.1 h.hasOffsets m₀ hm₀))
  exact congrArg Option.isSome (d.relative_located m₀)

theorem result_collectWarnings {modules : List Module}
    (h : modules.all Module.hasOffsets = true) :
    (collectWarnings settings modules).result = .ok (warningsOf settings modules) := by
  rw [collectWarnings, if_pos h]

/-- The second pass over a program with the addresses of its definitions, and with its table. -/
theorem secondPass_located {w : MemoryMap} :
    (secondPass settings s.located
        (SymbolTable.ofEntries settings.policy s.entries).freeze).result = .ok w ↔
      (∀ m ∈ s.modules, ∀ x ∈ m.instructions,
        m.Links settings (s.addressOf settings.policy) x) ∧
        ⟨(s.image settings.policy).words⟩ = w := by
  rw [secondPass_eq_ok rfl, Store.addressOf_ofEntries]
  exact and_congr List.forall_mem_map Iff.rfl

/-- **A link succeeds** when the tokens are accepted and the program is linkable, and it gives the
image of the program. -/
theorem link_eq_ok (hv : settings.IsValid) :
    (link settings tokens).result = .ok r ↔
      ∃ s, Store.parse settings tokens = .ok s ∧ s.Linkable settings ∧
        LinkResult.ofStore settings s = r := by
  rw [result_link, bind_eq_ok]
  refine exists_congr fun s => and_congr_right fun hs => ?_
  have h := Store.asRead_of_parse hs
  have hwarn : (collectWarnings settings (s.image settings.policy).modules).result = _ :=
    result_collectWarnings (h.hasOffsets_image settings.policy)
  rw [h.linkable_iff]
  constructor
  · intro hr
    obtain ⟨t, ht, hr₁⟩ := bind_eq_ok.1 hr
    obtain ⟨w, hw, hr₂⟩ := bind_eq_ok.1 hr₁
    obtain ⟨ws, hws, hr₃⟩ := bind_eq_ok.1 hr₂
    -- each stage that has succeeded fixes what the next one starts from
    obtain ⟨hd, hdistinct, rfl⟩ := (firstPass_eq_ok hv.1).1 ht
    rw [reached_firstPass ht] at hw hws hr₃
    rw [reached_secondPass hw, Store.addressOf_ofEntries] at hws hr₃
    obtain ⟨hlinks, rfl⟩ := secondPass_located.1 hw
    cases hws.symm.trans hwarn
    cases hr₃
    exact ⟨⟨hd, hdistinct, hlinks⟩, rfl⟩
  · rintro ⟨⟨hd, hdistinct, hlinks⟩, rfl⟩
    have ht := (firstPass_eq_ok hv.1).2 ⟨hd, hdistinct, rfl⟩
    have hw := secondPass_located.2 ⟨hlinks, rfl⟩
    refine bind_eq_ok.2 ⟨_, ht, ?_⟩
    rw [reached_firstPass ht]
    refine bind_eq_ok.2 ⟨_, hw, ?_⟩
    rw [reached_secondPass hw, Store.addressOf_ofEntries]
    exact bind_eq_ok.2 ⟨_, hwarn, rfl⟩

theorem link_eq_ok_of_parse (hv : settings.IsValid) (hs : Store.parse settings tokens = .ok s) :
    (link settings tokens).result = .ok r ↔
      s.Linkable settings ∧ LinkResult.ofStore settings s = r := by
  rw [link_eq_ok hv]
  constructor
  · rintro ⟨s', hs', h⟩
    cases hs.symm.trans hs'
    exact h
  · intro h
    exact ⟨s, hs, h⟩

/-- Behind tokens that end at a boundary others link when the program is linkable that the two
write together. -/
theorem link_append_eq_ok {A B : List Token} {sA : Store} (hv : settings.IsValid)
    (hA : Store.parse settings A = .ok sA) (hb : Reading.EndsAtBoundary settings A) :
    (link settings (A ++ B)).result = .ok r ↔
      ∃ sB, Store.parse settings B = .ok sB ∧ (sA.followedBy sB).Linkable settings ∧
        LinkResult.ofStore settings (sA.followedBy sB) = r := by
  rw [link_eq_ok hv]
  constructor
  · rintro ⟨s, hs, h⟩
    obtain ⟨sB, hB, rfl⟩ := (Store.parse_append hA hb).1 hs
    exact ⟨sB, hB, h⟩
  · rintro ⟨sB, hB, h⟩
    exact ⟨_, (Store.parse_append hA hb).2 ⟨sB, hB, rfl⟩, h⟩

/-- **A link fails** with the failure of the first stage that fails; the warnings are collected
without one. -/
theorem link_eq_error (hv : settings.IsValid) {f : Failure} :
    (link settings tokens).result = .error f ↔
      Store.parse settings tokens = .error f ∨ ∃ s, Store.parse settings tokens = .ok s ∧
        ((firstPass settings s).result = .error f ∨ ∃ t, (firstPass settings s).result = .ok t ∧
          (secondPass settings (firstPass settings s).reached t).result = .error f) := by
  rw [result_link, bind_eq_error]
  refine or_congr_right (exists_congr fun s => and_congr_right fun hs => ?_)
  rw [bind_eq_error]
  refine or_congr_right (exists_congr fun t => and_congr_right fun ht => ?_)
  rw [bind_eq_error]
  refine or_iff_left ?_
  rintro ⟨w, hw, h⟩
  obtain ⟨-, -, rfl⟩ := (firstPass_eq_ok hv.1).1 ht
  rw [reached_firstPass ht] at hw h
  rw [reached_secondPass hw, Store.addressOf_ofEntries] at h
  have hwarn : (collectWarnings settings (s.image settings.policy).modules).result = _ :=
    result_collectWarnings ((Store.asRead_of_parse hs).hasOffsets_image settings.policy)
  rcases bind_eq_error.1 h with hf | ⟨ws, -, hf⟩
  · cases hwarn.symm.trans hf
  · cases hf

/-! ### The image -/

theorem entries_ofStore (settings : Settings) (s : Store) :
    (LinkResult.ofStore settings s).symbols.entries = s.entries :=
  SymbolTable.entries_ofEntries settings.policy s.entries

/-- In the table of a link a name resolves to the entry that the policy chooses. -/
theorem lookup_ofStore (settings : Settings) (s : Store) (name : String) :
    (LinkResult.ofStore settings s).symbols.lookup name =
      settings.policy.choose (entriesNamed name s.entries) :=
  SymbolTable.lookup_ofEntries settings.policy s.entries name

namespace Store

theorem modules_image (policy : PolicySetting) (s : Store) :
    (s.image policy).modules =
      s.modules.map fun m => m.located.linked (s.addressOf policy) := by
  rw [image, linked, located, List.map_map]
  rfl

/-- The image defines the names that the program defines. -/
theorem definedNames_image (policy : PolicySetting) (s : Store) :
    (s.image policy).definedNames = s.definedNames := by
  rw [definedNames, modules_image, List.flatMap_map, definedNames]
  refine congrArg (fun f => s.modules.flatMap f) (funext fun m => ?_)
  show (m.definitions.map (Definition.located m)).map Definition.name = _
  rw [List.map_map]
  exact List.map_congr_left fun d _ => Definition.name_located m d

end Store

/-! ### The words of the image -/

namespace Store

theorem startOf_image (policy : PolicySetting) (s : Store) (i : Nat) :
    (s.image policy).startOf i = s.startOf i := by
  have hlen (m : Module) : (m.located.linked (s.addressOf policy)).length = m.length :=
    List.length_map _
  show wordCount (((s.modules.map Module.located).map (Module.linked _)).take i) = _
  rw [List.map_map, ← List.map_take]
  exact wordCount_map hlen _

/-- The word at a position of the image is that of the instruction there. -/
theorem getElem?_words_image {policy : PolicySetting} {i j : Nat} {m : Module} {x : Instruction}
    (hm : s.modules[i]? = some m) (hx : m.instructions[j]? = some x) :
    ∃ m', (s.image policy).modules[i]? = some m' ∧
      m'.instructions[j]? = some (m.linkedInstruction (s.addressOf policy) x) ∧
        (s.image policy).words[s.startOf i + j]? =
          some (m.linkedInstruction (s.addressOf policy) x).word := by
  have hm' : (s.image policy).modules[i]? = some (m.located.linked (s.addressOf policy)) := by
    simp only [image, linked, located, List.getElem?_map, hm, Option.map_some]
  have hx' : (m.located.linked (s.addressOf policy)).instructions[j]? =
      some (m.linkedInstruction (s.addressOf policy) x) := by
    simp only [Module.linked, Module.located, List.getElem?_map, hx, Option.map_some]
    rfl
  refine ⟨_, hm', hx', ?_⟩
  rw [words, List.getElem?_map, ← startOf_image policy, getElem?_instructions hm' hx']
  rfl

theorem size_words_image (policy : PolicySetting) (s : Store) :
    (s.image policy).words.length = s.totalLength := by
  have hall := startOf_image policy s s.modules.length
  have hlen : (s.image policy).modules.length = s.modules.length := by
    rw [image, linked, located, List.length_map, List.length_map]
  rw [startOf, startOf, List.take_length, ← hlen, List.take_length] at hall
  rw [words, List.length_map, length_instructions, hall, totalLength_eq_wordCount]

end Store

/-- **Linking is correct.**  A program that has been accepted is laid out back to back.  It links
exactly when it is linkable.  Then there is one word for each instruction; the word of an
instruction stands behind all words before it and consists of the opcode and the final address,
where a name stands for the address of the definition the policy chooses. -/
theorem link_correct (hv : settings.IsValid) (hp : Store.parse settings tokens = .ok s) :
    s.LaidOut ∧ ((∃ r, (link settings tokens).result = .ok r) ↔ s.Linkable settings) ∧
      ∀ r, (link settings tokens).result = .ok r →
        r.memory.size = s.totalLength ∧
          ∀ (i j : Nat) (m : Module) (x : Instruction),
            s.modules[i]? = some m → m.instructions[j]? = some x →
              ∃ m' x' a, r.store.modules[i]? = some m' ∧ m'.instructions[j]? = some x' ∧
                m.finalAddress? (s.addressOf settings.policy) x = some a ∧
                  x'.word = x.opcode * wordRadix + a ∧
                    r.memory.words[s.startOf i + j]? = some x'.word := by
  have hlink {r : LinkResult} (hr : (link settings tokens).result = .ok r) :
      s.Linkable settings ∧ LinkResult.ofStore settings s = r := by
    obtain ⟨s', hs', hl, hr'⟩ := (link_eq_ok hv).1 hr
    cases hp.symm.trans hs'
    exact ⟨hl, hr'⟩
  refine ⟨Store.laidOut_of_parse hp, ⟨?_, ?_⟩, ?_⟩
  · rintro ⟨r, hr⟩
    exact (hlink hr).1
  · intro hl
    exact ⟨_, (link_eq_ok hv).2 ⟨s, hp, hl, rfl⟩⟩
  · intro r hr
    obtain ⟨hl, rfl⟩ := hlink hr
    refine ⟨Store.size_words_image settings.policy s, fun i j m x hm hx => ?_⟩
    obtain ⟨m', hm', hx', hword⟩ := Store.getElem?_words_image hm hx
    obtain ⟨a, ha, -, -⟩ := hl.links (Store.asRead_of_parse hp) (List.mem_of_getElem? hm)
      (List.mem_of_getElem? hx)
    refine ⟨m', _, a, hm', hx', ha, ?_, hword⟩
    rw [Module.linkedInstruction, ha]
    rfl

/-- Two modules, the first of which uses a symbol of the second. -/
def forwardUse : List Token :=
  Token.inLine ["0", "1", "z", "2", "R", "1001", "E", "2000", "1", "z", "0", "0", "1", "A", "4005"]

/-- The program that `forwardUse` writes. -/
def forwardUseStore : Store where
  modules := [
    { index := 0, start := 0, uses := [⟨"z", some ⟨"-", 1, 3⟩⟩],
      instructions := [.fresh .relative 1 1 (some ⟨"-", 1, 6⟩),
        .fresh .external 2 0 (some ⟨"-", 1, 8⟩)] },
    { index := 1, start := 2, definitions := [.fresh "z" (some 0) (some ⟨"-", 1, 10⟩)],
      instructions := [.fresh .absolute 4 5 (some ⟨"-", 1, 15⟩)] }]

theorem link_correct_forwardUse :
    Settings.IsValid {} ∧ Store.parse {} forwardUse = .ok forwardUseStore ∧
      forwardUseStore.LaidOut ∧ forwardUseStore.Linkable {} ∧
        ∃ r, (link {} forwardUse).result = .ok r ∧ r.memory.size = forwardUseStore.totalLength ∧
          r.memory.words[forwardUseStore.startOf 0 + 1]? = some 2002 := by
  have hv : Settings.IsValid {} := by decide
  have hp : Store.parse {} forwardUse = .ok forwardUseStore := by rfl
  obtain ⟨hlaid, hlinks, hall⟩ := link_correct hv hp
  have hsome : (link {} forwardUse).result.toOption.isSome = true := by decide
  cases hr : (link {} forwardUse).result with
  | error e => rw [hr] at hsome; cases hsome
  | ok r =>
    obtain ⟨hsize, hwords⟩ := hall r hr
    obtain ⟨m', x', a, -, -, ha, hx', hword⟩ := hwords 0 1 _ _ rfl rfl
    obtain rfl : 2 = a := Option.some.inj ha
    rw [hx'] at hword
    exact ⟨hv, hp, hlaid, hlinks.1 ⟨r, hr⟩, r, rfl, hsize, hword⟩

end Linkage
