import Linkage.Proofs.Link
import Linkage.Proofs.Scanning

/-!
# Linking — the size of the machine and the size of the image

The size of the machine bounds the addresses that a program holds: in an image every address field
is an address of the machine (`isAddress_of_linkable`), every symbol stands for one
(`isAddress_of_mem_entries`), and a module with a definition or a relative instruction starts at one
(`isAddress_start`), so all words before it are in the machine.

**The number of words is not bounded by it** (`exists_link_of_size`).  Words that hold no address of
the program themselves, and that no such module follows, are placed without a look at where they
are.
`wordModules` is a text of as many of them as one likes.
-/

namespace Linkage

variable {settings : Settings} {s : Store} {m : Module} {x : Instruction}

/-- The number is an address of the machine. -/
def Settings.IsAddress (settings : Settings) (a : Int) : Prop := 0 ≤ a ∧ a ≤ settings.maxAddress

/-! ### What the size of the machine bounds -/

namespace Store

/-- A symbol stands for an address of the machine. -/
theorem isAddress_of_mem_entries (h : s.AsRead settings) (hl : s.Linkable settings) {e : Entry}
    (he : e ∈ s.entries) : settings.IsAddress e.address := by
  obtain ⟨m, hm, d, hd, hde⟩ := mem_entries.1 he
  obtain ⟨n, hn⟩ := h.offset m hm d hd
  obtain ⟨_, he', hle⟩ := Definition.inMachine_iff.1 (hl.defined m hm d hd)
  cases hde.symm.trans he'
  rw [Definition.entryIn?_of_relative m hn] at hde
  cases hde
  exact ⟨Int.natCast_nonneg (n + m.start), hle⟩

/-- The address field of an instruction becomes an address of the machine. -/
theorem isAddress_of_linkable (h : s.AsRead settings) (hl : s.Linkable settings)
    (hm : m ∈ s.modules) (hx : x ∈ m.instructions) :
    settings.IsAddress (m.linkedInstruction (s.addressOf settings.policy) x).address := by
  obtain ⟨a, ha, hle, -⟩ := hl.links h hm hx
  have hlinked : (m.linkedInstruction (s.addressOf settings.policy) x).address = a := by
    rw [Module.linkedInstruction, ha]
    rfl
  refine hlinked ▸ ⟨?_, hle⟩
  obtain ⟨k, hk, -⟩ := h.address m hm x hx
  cases hc : x.classification with
  | immediate =>
    rw [Module.finalAddress?, hc] at ha
    cases ha
    exact hk ▸ Int.natCast_nonneg k
  | absolute =>
    rw [Module.finalAddress?, hc] at ha
    cases ha
    exact hk ▸ Int.natCast_nonneg k
  | relative =>
    rw [Module.finalAddress?, hc] at ha
    cases ha
    exact hk ▸ Int.natCast_nonneg (k + m.start)
  | external =>
    rw [Module.finalAddress?, hc] at ha
    obtain ⟨u, -, hu⟩ := Option.bind_eq_some_iff.1 ha
    obtain ⟨e, he, rfl⟩ := exists_of_addressOf hu
    exact (isAddress_of_mem_entries h hl he).1

/-- The modules of an image are those of the program, with their addresses in place. -/
theorem exists_of_getElem?_image {policy : PolicySetting} {i : Nat}
    (h : (s.image policy).modules[i]? = some m) :
    ∃ m₀, s.modules[i]? = some m₀ ∧ m.definitions = m₀.definitions.map (Definition.located m₀) ∧
      m.instructions = m₀.instructions.map (m₀.linkedInstruction (s.addressOf policy)) := by
  simp only [image, linked, located, List.getElem?_map, Option.map_eq_some_iff] at h
  obtain ⟨_, ⟨m₀, hm₀, rfl⟩, rfl⟩ := h
  exact ⟨m₀, hm₀, rfl, rfl⟩

/-- A module with a definition or a relative instruction starts at an address of the machine. -/
theorem isAddress_start (h : s.AsRead settings) (hl : s.Linkable settings) (hm : m ∈ s.modules)
    (hfixed : m.definitions ≠ [] ∨ ∃ x ∈ m.instructions, x.classification = .relative) :
    settings.IsAddress m.start := by
  refine ⟨Int.natCast_nonneg _, ?_⟩
  rcases hfixed with hne | ⟨x, hx, hc⟩
  · obtain ⟨d, hd⟩ := List.exists_mem_of_ne_nil _ hne
    obtain ⟨n, hn⟩ := h.offset m hm d hd
    obtain ⟨_, hn', hle⟩ := hl.defined m hm d hd
    cases hn.symm.trans hn'
    omega
  · obtain ⟨k, hk, -⟩ := h.address m hm x hx
    have hle := hl.relative m hm x hx hc
    omega

end Store

/-! ### What it does not bound -/

/-- The words of a text of `n` modules with one immediate instruction each. -/
def wordModules : Nat → List (List Char)
  | 0     => []
  | n + 1 => [['0'], ['0'], ['1'], ['I'], ['1', '0']] ++ wordModules n

theorem run_of_mem_wordModules (n : Nat) :
    ∀ w ∈ wordModules n, w ≠ [] ∧ ∀ c ∈ w, isAlphanumeric c = true := by
  have hzero : isAlphanumeric '0' = true := by decide
  have hone : isAlphanumeric '1' = true := by decide
  have hletter : isAlphanumeric 'I' = true := by decide
  have hwords : ∀ w ∈ [['0'], ['0'], ['1'], ['I'], ['1', '0']],
      w ≠ [] ∧ ∀ c ∈ w, isAlphanumeric c = true := by simp [hzero, hone, hletter]
  induction n with
  | zero => exact nofun
  | succ n ih => exact List.forall_mem_append.2 ⟨hwords, ih⟩

/-- Tokens with those characters write as many modules, each with one immediate instruction. -/
theorem exists_programText (hv : settings.IsValid) (n : Nat) {ts : List Token}
    (h : ts.map Token.chars = wordModules n) :
    ∃ p : ProgramText settings, p.tokens = ts ∧ wordCount p.modules = n ∧
      ∀ m ∈ p.modules, m.definitions = [] ∧
        ∀ x ∈ m.instructions, x.classification = .immediate := by
  induction n generalizing ts with
  | zero => exact ⟨.ended, (List.map_eq_nil_iff.1 h).symm, rfl, nofun⟩
  | succ n ih =>
    obtain ⟨d, _, rfl, hd, h⟩ := List.map_eq_cons_iff.1 h
    obtain ⟨u, _, rfl, hu, h⟩ := List.map_eq_cons_iff.1 h
    obtain ⟨c, _, rfl, hc, h⟩ := List.map_eq_cons_iff.1 h
    obtain ⟨t, _, rfl, ht, h⟩ := List.map_eq_cons_iff.1 h
    obtain ⟨w, _, rfl, hw, h⟩ := List.map_eq_cons_iff.1 h
    obtain ⟨p, rfl, hcount, hp⟩ := ih h
    have hzero : Numeral.Writes ['0'] 0 := by decide
    have hone : Numeral.Writes ['1'] 1 := by decide
    have hmax : (0 : Int) ≤ settings.maxAddress := Int.le_sub_one_of_lt hv.2.1
    have hword : WritesWord settings ['1', '0'] 1 0 :=
      ⟨'1', ['0'], rfl, by decide, rfl, hzero, hmax⟩
    let x : InstructionText settings :=
      ⟨t, w, .immediate, 1, 0, by rw [ht]; rfl, by rw [hw]; exact hword⟩
    let m : ModuleText settings :=
      ⟨⟨⟨d, 0, hd ▸ hzero⟩, [], rfl⟩, ⟨⟨u, 0, hu ▸ hzero⟩, [], rfl⟩, ⟨⟨c, 1, hc ▸ hone⟩, [x], rfl⟩⟩
    refine ⟨.module m p, rfl, ?_, ?_⟩
    · show 1 + wordCount p.modules = n + 1
      rw [hcount, Nat.add_comm]
    · refine List.forall_mem_cons.2 ⟨⟨rfl, ?_⟩, hp⟩
      exact List.forall_mem_cons.2 ⟨rfl, nofun⟩

/-- A program of immediate instructions without definitions is linkable. -/
theorem Store.linkable_of_forall
    (h : ∀ m ∈ s.modules, m.definitions = [] ∧
      ∀ x ∈ m.instructions, x.classification = .immediate) : s.Linkable settings where
  defined m hm d hd := by rw [(h m hm).1] at hd; cases hd
  distinct _ := by
    have hnames : s.definedNames = [] :=
      List.flatMap_eq_nil_iff.2 fun m hm => by rw [(h m hm).1]; rfl
    rw [hnames]
    exact List.nodup_nil
  resolved m hm x hx hc := by cases hc.symm.trans ((h m hm).2 x hx)
  relative m hm x hx hc := by cases hc.symm.trans ((h m hm).2 x hx)

/-- **Images of every size.**  Whatever the size of the machine, for each number there is a text
that links to as many words. -/
theorem exists_link_of_size (hv : settings.IsValid) (n : Nat) (filename : String) :
    ∃ source r, (linkText settings source filename).result = .ok r ∧ r.memory.size = n := by
  obtain ⟨p, hp, hcount, hall⟩ := exists_programText hv n
    (map_chars_scan filename (run_of_mem_wordModules n))
  have hmodules : ∀ m ∈ p.store.modules, m.definitions = [] ∧
      ∀ x ∈ m.instructions, x.classification = .immediate := by
    intro m hm
    rw [ProgramText.store, Store.modules_ofModules] at hm
    obtain ⟨m₀, h₀, i, k, rfl⟩ := Store.exists_of_mem_placedFrom hm
    exact hall m₀ h₀
  refine ⟨_, _, (link_eq_ok hv).2 ⟨p.store, Store.parse_eq_ok_iff.2 ⟨p, hp, rfl⟩,
    Store.linkable_of_forall hmodules, rfl⟩, ?_⟩
  refine (Store.size_words_image settings.policy p.store).trans ?_
  rw [ProgramText.store, ← Store.appendAll_empty, Store.totalLength_appendAll, hcount]
  exact Nat.zero_add n

/-- **What the size of the machine bounds, and what not.**  In the image of every text the address
fields and the symbols are addresses of the machine, and so are the starts of the modules with a
definition or a relative instruction; the number of words may be any. -/
theorem linkText_capacity (hv : settings.IsValid) (filename : String) :
    (∀ source r, (linkText settings source filename).result = .ok r →
      (∀ m ∈ r.store.modules, ∀ x ∈ m.instructions, settings.IsAddress x.address) ∧
        (∀ e ∈ r.symbols.entries, settings.IsAddress e.address) ∧
          ∀ (i : Nat) (m : Module), r.store.modules[i]? = some m →
            (m.definitions ≠ [] ∨ ∃ x ∈ m.instructions, x.classification = .relative) →
              settings.IsAddress (r.store.startOf i)) ∧
      ∀ n, ∃ source r, (linkText settings source filename).result = .ok r ∧ r.memory.size = n := by
  refine ⟨fun source r hr => ?_, fun n => exists_link_of_size hv n filename⟩
  obtain ⟨s, hp, hl, rfl⟩ := (link_eq_ok hv).1 hr
  have h := Store.asRead_of_parse hp
  refine ⟨fun m hm x hx => ?_, fun e he => ?_, fun i m hm hfixed => ?_⟩
  · obtain ⟨i, hi⟩ := List.mem_iff_getElem?.1 hm
    obtain ⟨m₀, hm₀, -, hxs⟩ := Store.exists_of_getElem?_image hi
    obtain ⟨x₀, hx₀, rfl⟩ := List.mem_map.1 (hxs ▸ hx)
    exact Store.isAddress_of_linkable h hl (List.mem_of_getElem? hm₀) hx₀
  · have hentries : (LinkResult.ofStore settings s).symbols.entries = s.entries :=
      SymbolTable.entries_ofEntries settings.policy s.entries
    exact Store.isAddress_of_mem_entries h hl (hentries ▸ he)
  · obtain ⟨m₀, hm₀, hds, hxs⟩ := Store.exists_of_getElem?_image hm
    have hstart : (LinkResult.ofStore settings s).store.startOf i = m₀.start :=
      (Store.startOf_image settings.policy s i).trans (Store.laidOut_of_parse hp i m₀ hm₀).2.symm
    rw [hstart]
    refine Store.isAddress_start h hl (List.mem_of_getElem? hm₀) (hfixed.imp ?_ ?_)
    · rintro hne hnil
      exact hne (by rw [hds, hnil, List.map_nil])
    · rintro ⟨x, hx, hc⟩
      obtain ⟨x₀, hx₀, rfl⟩ := List.mem_map.1 (hxs ▸ hx)
      exact ⟨x₀, hx₀, hc⟩

/-- A machine of one word takes an image of two. -/
theorem linkText_capacity_two :
    Settings.IsValid { machineSize := 1 } ∧
      ∃ source r, (linkText { machineSize := 1 } source "<input>").result = .ok r ∧
        r.memory.size = 2 := by
  have hv : Settings.IsValid { machineSize := 1 } := by decide
  exact ⟨hv, (linkText_capacity hv "<input>").2 2⟩

/-- **An image may be larger than the machine.** -/
theorem linkText_exceeds_machine :
    ¬ ∀ r, (linkText { machineSize := 1 } "0 0 2 I 10 I 10" "<input>").result = .ok r →
      (r.memory.size : Int) ≤ Settings.machineSize { machineSize := 1 } := by
  intro h
  have hscan : Token.scan "0 0 2 I 10 I 10" "<input>" =
      [⟨"0", 0, ⟨"<input>", 1, 1⟩⟩, ⟨"0", 1, ⟨"<input>", 1, 3⟩⟩, ⟨"2", 2, ⟨"<input>", 1, 5⟩⟩,
        ⟨"I", 3, ⟨"<input>", 1, 7⟩⟩, ⟨"10", 4, ⟨"<input>", 1, 9⟩⟩, ⟨"I", 5, ⟨"<input>", 1, 12⟩⟩,
        ⟨"10", 6, ⟨"<input>", 1, 14⟩⟩] := by cbv
  have hwords : (linkText { machineSize := 1 } "0 0 2 I 10 I 10" "<input>").result.map
      (fun r => r.memory.words) = .ok [1000, 1000] := by
    rw [linkText, hscan]
    rfl
  obtain ⟨r, hr, hmemory⟩ := map_eq_ok.1 hwords
  have hsize := h r hr
  rw [MemoryMap.size, hmemory] at hsize
  exact absurd hsize (by decide)

end Linkage
