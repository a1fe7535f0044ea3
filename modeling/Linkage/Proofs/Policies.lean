import Linkage.Proofs.Contiguity
import Linkage.Proofs.SymbolTable.History
import Linkage.Proofs.Warnings

/-!
# Linking — the policies compared

The policy decides two things: whether a repeated definition is refused, and which definition of a
name holds.  Neither matters for a name that is defined once.

* `Linkable.under`: under `first` and `last` the same programs are linkable, under `error` those of
  them that define no name twice.
* `words_image_or`: two policies give the same word at every address, except where an external
  instruction refers to a name with several definitions (`Module.RefersToRepeated`).
* `ofStore_under`: where no name is defined twice, the results differ in nothing but the policy that
  the table carries.

`link_policies` puts them together, for the tokens of a program.
-/

namespace Linkage

/-! ### Another policy -/

/-- The settings with another policy. -/
def Settings.under (settings : Settings) (p : DuplicatePolicy) : Settings :=
  { settings with policy := .known p }

/-- The result with another policy in its table. -/
def LinkResult.under (r : LinkResult) (p : DuplicatePolicy) : LinkResult :=
  { r with symbols := { r.symbols with policy := .known p } }

/-- The instruction is external, and several of the entries have the name that it refers to. -/
def Module.RefersToRepeated (es : List Entry) (m : Module) (x : Instruction) : Prop :=
  x.classification = .external ∧ ∃ (k : Nat) (u : Use),
    x.asRead = k ∧ m.uses[k]? = some u ∧ 1 < (entriesNamed u.name es).length

/-! ### Names with one entry -/

theorem length_entriesNamed (name : String) (es : List Entry) :
    (entriesNamed name es).length = (es.map Entry.name).count name := by
  rw [entriesNamed, ← List.countP_eq_length_filter, List.count_eq_countP, List.countP_map]
  rfl

/-- Of one entry all policies choose the same. -/
theorem PolicySetting.choose_eq_of_length_le_one (p q : PolicySetting) {es : List Entry}
    (h : es.length ≤ 1) : p.choose es = q.choose es := by
  match es, h with
  | [], _ => rw [choose_eq_none.2 rfl, choose_eq_none.2 rfl]
  | [e], _ => exact (p.choose_toList (some e)).trans (q.choose_toList (some e)).symm

namespace SymbolTable

variable {t : SymbolTable} {es : List Entry}

theorem duplicates_ofEntries (policy : PolicySetting) (es : List Entry) :
    (ofEntries policy es).duplicates =
      (es.map Entry.name).eraseDups.filter fun name => 1 < (entriesNamed name es).length := by
  rw [duplicates_eq, entries_ofEntries]
  refine List.filter_congr fun name _ => ?_
  rw [length_entriesNamed]
  rfl

/-- No name has several entries when no name is repeated. -/
theorem duplicates_ofEntries_eq_nil (policy : PolicySetting) (es : List Entry) :
    (ofEntries policy es).duplicates = [] ↔ (es.map Entry.name).Nodup := by
  rw [duplicates_ofEntries, List.filter_eq_nil_iff, List.nodup_iff_count]
  simp only [List.mem_eraseDups, decide_eq_true_eq, Nat.not_lt, length_entriesNamed]
  constructor
  · intro h name
    by_cases hmem : name ∈ es.map Entry.name
    · exact h name hmem
    · rw [List.count_eq_zero.2 hmem]
      exact Nat.zero_le 1
  · intro h name _
    exact h name

/-- Entries that bring only new names are what these names resolve to. -/
theorem resolved_enterAll (h : (t.names ++ es.map Entry.name).Nodup) :
    (t.enterAll es).resolved = t.resolved ++ es := by
  induction es generalizing t with
  | nil => exact (List.append_nil _).symm
  | cons e es ih =>
    have hnew : e.name ∉ t.names := fun hmem =>
      (List.nodup_append.1 h).2.2 _ hmem _ List.mem_cons_self rfl
    have hnames : (t.enter e).names = t.names ++ [e.name] := by rw [names_enter, if_neg hnew]
    have hresolved : (t.enter e).resolved = t.resolved ++ [e] :=
      if_neg fun hc => hnew ((t.contains_iff e.name).1 hc)
    rw [enterAll_cons, ih, hresolved, List.append_assoc, List.singleton_append]
    rwa [hnames, List.append_assoc, List.singleton_append]

/-- Where no name is repeated, the tables of the policies differ in the policy only. -/
theorem ofEntries_eq (policy : PolicySetting) (h : (es.map Entry.name).Nodup) :
    ofEntries policy es = ⟨policy, es, es, false⟩ := by
  have hpolicy : (ofEntries policy es).policy = policy := policy_enterAll _ _
  have hresolved : (ofEntries policy es).resolved = es := resolved_enterAll h
  have hfrozen : (ofEntries policy es).frozen = false := frozen_enterAll _ _
  show SymbolTable.mk (ofEntries policy es).policy (ofEntries policy es).entries
    (ofEntries policy es).resolved (ofEntries policy es).frozen = _
  rw [hpolicy, entries_ofEntries, hresolved, hfrozen]

end SymbolTable

/-! ### Programs under two policies -/

namespace Store

variable {settings : Settings} {s : Store} {p q : DuplicatePolicy} {name : String}

theorem addressOf_eq_of_length_le_one (p q : PolicySetting)
    (h : (entriesNamed name s.entries).length ≤ 1) : s.addressOf p name = s.addressOf q name :=
  congrArg (Option.map Entry.address) (p.choose_eq_of_length_le_one q h)

/-- Under another policy a program stays linkable, unless a name is defined twice and that is
refused. -/
theorem Linkable.under (hl : s.Linkable (settings.under p))
    (hq : q = .error → s.definedNames.Nodup) : s.Linkable (settings.under q) where
  defined := hl.defined
  distinct h := hq (PolicySetting.known.inj h)
  resolved := hl.resolved
  relative := hl.relative

/-- Every address of a program is that of an instruction. -/
theorem exists_instruction_of_lt {a : Nat} (h : a < s.totalLength) :
    ∃ (i j : Nat) (m : Module) (x : Instruction),
      s.modules[i]? = some m ∧ m.instructions[j]? = some x ∧ a = s.startOf i + j := by
  rw [totalLength_eq_wordCount] at h
  obtain ⟨i, m, hm, hle, hlt⟩ := exists_of_lt_wordCount h
  obtain ⟨j, rfl⟩ := Nat.exists_eq_add_of_le hle
  have hj : j < m.instructions.length := Nat.lt_of_add_lt_add_left hlt
  exact ⟨i, j, m, m.instructions[j], hm, List.getElem?_eq_getElem hj, rfl⟩

/-- **Two policies give the same word at every address**, except where an external instruction
refers to a name with several definitions. -/
theorem words_image_or (hlaid : s.LaidOut)
    (hread : ∀ m ∈ s.modules, ∀ x ∈ m.instructions, x.asRead = x.address ∧ ∃ k : Nat, x.address = k)
    (p q : PolicySetting) (a : Nat) :
    (s.image p).words[a]? = (s.image q).words[a]? ∨
      ∃ m ∈ (s.image p).modules, ∃ (j : Nat) (x : Instruction), a = m.start + j ∧
        m.instructions[j]? = some x ∧ m.RefersToRepeated s.entries x := by
  by_cases ha : a < s.totalLength
  · -- the address is that of an instruction, and its final address is the same under both
    obtain ⟨i, j, m, x, hm, hx, rfl⟩ := exists_instruction_of_lt ha
    have hmem := List.mem_of_getElem? hm
    by_cases hrep : m.RefersToRepeated s.entries x
    · refine .inr ⟨m.located.linked (s.addressOf p), ?_, j, m.linkedInstruction (s.addressOf p) x,
        congrArg (· + j) (hlaid i m hm).2.symm, ?_, hrep⟩
      · rw [modules_image]
        exact List.mem_map_of_mem hmem
      · exact (List.getElem?_map ..).trans (congrArg (Option.map _) hx)
    · have hfinal : m.finalAddress? (s.addressOf p) x = m.finalAddress? (s.addressOf q) x := by
        refine Module.finalAddress?_congr fun hk u hu => addressOf_eq_of_length_le_one p q ?_
        obtain ⟨hread, k, hxk⟩ := hread m hmem x (List.mem_of_getElem? hx)
        rw [hxk, elementAt?_natCast] at hu
        exact Nat.not_lt.1 fun hlt => hrep ⟨hk, k, u, hread.trans hxk, hu, hlt⟩
      have hword (policy : PolicySetting) : (s.image policy).words[s.startOf i + j]? =
          some (m.linkedInstruction (s.addressOf policy) x).word :=
        Exists.elim (getElem?_words_image hm hx) fun _ h => h.2.2
      rw [hword, hword, Module.linkedInstruction, Module.linkedInstruction, hfinal]
      exact .inl rfl
  · have hnone (policy : PolicySetting) : (s.image policy).words[a]? = none :=
      List.getElem?_eq_none (by rw [size_words_image]; exact Nat.not_lt.1 ha)
    exact .inl ((hnone p).trans (hnone q).symm)

/-- **Where no name is defined twice**, the results under two policies differ in nothing but the
policy that the table carries. -/
theorem ofStore_under (h : (s.entries.map Entry.name).Nodup) (p q : DuplicatePolicy) :
    LinkResult.ofStore (settings.under q) s = (LinkResult.ofStore (settings.under p) s).under q := by
  have himage : s.image (.known q) = s.image (.known p) := by
    refine congrArg s.located.linked (funext fun name => addressOf_eq_of_length_le_one q p ?_)
    rw [length_entriesNamed]
    exact List.nodup_iff_count.1 h name
  simp only [LinkResult.ofStore, LinkResult.under, Settings.under, himage,
    SymbolTable.ofEntries_eq _ h]
  rfl

end Store

/-! ### Links under the three policies -/

variable {settings : Settings} {tokens : List Token} {p : DuplicatePolicy} {r : LinkResult}

theorem link_under_eq_ok (hsize : 1 ≤ settings.machineSize ∧ settings.machineSize ≤ wordRadix) :
    (link (settings.under p) tokens).result = .ok r ↔
      ∃ s, Store.parse settings tokens = .ok s ∧ s.Linkable (settings.under p) ∧
        LinkResult.ofStore (settings.under p) s = r :=
  link_eq_ok ⟨rfl, hsize⟩

/-- **The policies agree wherever they should.**  A link succeeds under `first` when it succeeds
under `last`.  Both give the same symbols, the same repeated names and the same warnings, and the
same word at every address, except where an external instruction refers to a name with several
definitions.  Under `error` a link succeeds when it does so under `first` and repeats no name; then
the three results differ in nothing but the policy that the table carries. -/
theorem link_policies (hsize : 1 ≤ settings.machineSize ∧ settings.machineSize ≤ wordRadix)
    (tokens : List Token) :
    ((∃ r, (link (settings.under .first) tokens).result = .ok r) ↔
      ∃ r, (link (settings.under .last) tokens).result = .ok r) ∧
    (∀ r r', (link (settings.under .first) tokens).result = .ok r →
      (link (settings.under .last) tokens).result = .ok r' →
        r.symbols.entries = r'.symbols.entries ∧ r.symbols.duplicates = r'.symbols.duplicates ∧
          r.warnings = r'.warnings ∧
            ∀ a : Nat, r.memory.words[a]? = r'.memory.words[a]? ∨
              ∃ m ∈ r.store.modules, ∃ (j : Nat) (x : Instruction), a = m.start + j ∧
                m.instructions[j]? = some x ∧ m.RefersToRepeated r.symbols.entries x) ∧
    ((∃ r, (link (settings.under .error) tokens).result = .ok r) ↔
      ∃ r, (link (settings.under .first) tokens).result = .ok r ∧ r.symbols.duplicates = []) ∧
    ∀ r, (link (settings.under .error) tokens).result = .ok r →
      (link (settings.under .first) tokens).result = .ok (r.under .first) ∧
        (link (settings.under .last) tokens).result = .ok (r.under .last) := by
  simp only [link_under_eq_ok hsize]
  refine ⟨⟨?_, ?_⟩, ?_, ⟨?_, ?_⟩, ?_⟩
  · rintro ⟨_, s, hs, hl, -⟩
    exact ⟨_, s, hs, hl.under nofun, rfl⟩
  · rintro ⟨_, s, hs, hl, -⟩
    exact ⟨_, s, hs, hl.under nofun, rfl⟩
  · rintro _ _ ⟨s, hs, hl, rfl⟩ ⟨s', hs', -, rfl⟩
    cases hs.symm.trans hs'
    refine ⟨(entries_ofStore _ s).trans (entries_ofStore _ s).symm, ?_, ?_, fun a => ?_⟩
    · exact (SymbolTable.duplicates_ofEntries _ _).trans (SymbolTable.duplicates_ofEntries _ _).symm
    · exact (warningsOf_image settings _ s).trans (warningsOf_image settings _ s).symm
    · rw [entries_ofStore]
      exact Store.words_image_or (Store.laidOut_of_parse hs) (Store.asRead_eq_of_parse hs) _ _ a
  · rintro ⟨_, s, hs, hl, rfl⟩
    have hnodup := hl.distinct rfl
    refine ⟨_, ⟨s, hs, hl.under fun _ => hnodup, rfl⟩, ?_⟩
    rw [← (Store.asRead_of_parse hs).map_name_entries] at hnodup
    exact (SymbolTable.duplicates_ofEntries_eq_nil _ _).2 hnodup
  · rintro ⟨_, ⟨s, hs, hl, rfl⟩, hnil⟩
    have hnodup := (SymbolTable.duplicates_ofEntries_eq_nil _ _).1 hnil
    rw [(Store.asRead_of_parse hs).map_name_entries] at hnodup
    exact ⟨_, s, hs, hl.under fun _ => hnodup, rfl⟩
  · rintro _ ⟨s, hs, hl, rfl⟩
    have hnodup := hl.distinct rfl
    have hnames : (s.entries.map Entry.name).Nodup := by
      rwa [(Store.asRead_of_parse hs).map_name_entries]
    exact ⟨⟨s, hs, hl.under nofun, Store.ofStore_under hnames .error .first⟩,
      s, hs, hl.under nofun, Store.ofStore_under hnames .error .last⟩

/-- A module that uses the symbol it defines, and a second definition of that symbol. -/
def definedTwice : List Token :=
  Token.inLine ["1", "a", "0", "1", "a", "1", "E", "2000", "1", "a", "0", "0", "1", "I", "3007"]

/-- Only the external instruction has another word under another policy. -/
theorem link_policies_definedTwice :
    (1 ≤ Settings.machineSize {} ∧ Settings.machineSize {} ≤ wordRadix) ∧
      (¬ ∃ r, (link (Settings.under {} .error) definedTwice).result = .ok r) ∧
        ∃ r r', (link (Settings.under {} .first) definedTwice).result = .ok r ∧
          (link (Settings.under {} .last) definedTwice).result = .ok r' ∧
            r.symbols.entries = r'.symbols.entries ∧ r.memory.words = [2000, 3007] ∧
              r'.memory.words = [2001, 3007] := by
  have hsize : 1 ≤ Settings.machineSize {} ∧ Settings.machineSize {} ≤ wordRadix := by decide
  have hfirst : (link (Settings.under {} .first) definedTwice).result.map
      (fun r => (r.memory.words, r.symbols.duplicates)) = .ok ([2000, 3007], ["a"]) := by rfl
  have hlast : (link (Settings.under {} .last) definedTwice).result.map
      (fun r => r.memory.words) = .ok [2001, 3007] := by rfl
  obtain ⟨r, hr, hrw⟩ := map_eq_ok.1 hfirst
  obtain ⟨r', hr', hrw'⟩ := map_eq_ok.1 hlast
  obtain ⟨hwords, hdup⟩ := Prod.mk.inj hrw
  obtain ⟨-, hagree, herror, -⟩ := link_policies hsize definedTwice
  refine ⟨hsize, fun hok => ?_, r, r', hr, hr', (hagree r r' hr hr').1, hwords, hrw'⟩
  obtain ⟨r₁, hr₁, hnil⟩ := herror.1 hok
  cases hr.symm.trans hr₁
  cases hdup.symm.trans hnil

end Linkage
