import Linkage.Proofs.Link

/-!
# Passes — the fault that a pass reports

Each pass visits its sites in program order, and a site has a fault or it has none.

* `DefinitionFault`: the address of a definition is beyond the machine, or where repeated names are
  an error the name has been defined before.  The second depends on the definitions before it, and
  is not looked at where the first holds.
* `InstructionFault`: an external instruction picks no use of its module, or the name it picks is
  not defined; or the address of a relative instruction is beyond the machine.  An immediate and an
  absolute instruction have none: their addresses have been checked when they were read.

Each constructor has the failure in full: what is wrong, where it was read, and in which module.

**Each pass fails with the first fault of its sites** (`firstPass_eq_error_iff`,
`secondPass_eq_error_iff`).  The table gives an external instruction the address of a definition,
which is one of the machine when the first pass has succeeded (`addressOf_le`); so the second pass
never finds an external instruction beyond the machine.
-/

namespace Linkage

variable {settings : Settings} {s : Store} {f : Failure}

/-! ### Definitions -/

/-- What is wrong with a definition of the module `m`, behind the definitions `pre`, and the failure
that reports it. -/
inductive DefinitionFault (settings : Settings) (pre : List (Module × Definition)) :
    Module × Definition → Failure → Prop where
  /-- The address is beyond the machine. -/
  | beyond {m : Module} {d : Definition} {offset : Int} (relative : d.relative = some offset)
      (beyond : settings.machineSize - 1 < offset + m.start)
      (writable : Numeral.isWritable (offset + m.start) = true) :
      DefinitionFault settings pre (m, d)
        (.link ⟨.addressOutOfRange (offset + m.start) settings.machineSize none, d.location,
          m.index⟩)
  /-- The address is beyond the machine, and has too many digits to be written. -/
  | tooLarge {m : Module} {d : Definition} {offset : Int} (relative : d.relative = some offset)
      (beyond : settings.machineSize - 1 < offset + m.start)
      (tooLarge : Numeral.isWritable (offset + m.start) = false) :
      DefinitionFault settings pre (m, d) (.numeral .tooLarge)
  /-- The name has been defined before, first in the module `m₀`. -/
  | repeated {m m₀ : Module} {d d₀ : Definition} {offset : Int}
      (relative : d.relative = some offset)
      (inMachine : offset + m.start ≤ settings.machineSize - 1)
      (policy : settings.policy = .known .error)
      (earlier : pre.find? (fun site => site.2.name == d.name) = some (m₀, d₀)) :
      DefinitionFault settings pre (m, d)
        (.link ⟨.duplicate d.name m₀.index, d.location, m.index⟩)

/-- Where repeated names are an error a name stands for the entry of its first definition. -/
theorem lookup_entriesAt {policy : PolicySetting} (hp : policy = .known .error)
    {sites : List (Module × Definition)} (h : ∀ site ∈ sites, site.2.relative ≠ none)
    (name : String) :
    (SymbolTable.ofEntries policy (entriesAt sites)).lookup name =
      (sites.find? fun site => site.2.name == name).bind fun site => site.2.entryIn? site.1 := by
  rw [SymbolTable.lookup_ofEntries, hp, PolicySetting.choose, if_neg (by decide), entriesNamed,
    List.head?_filter]
  induction sites with
  | nil => rfl
  | cons site sites ih =>
    obtain ⟨m, d⟩ := site
    obtain ⟨hd, hsites⟩ := List.forall_mem_cons.1 h
    obtain ⟨offset, ho⟩ := Option.ne_none_iff_exists'.1 hd
    have he := Definition.entryIn?_of_relative m ho
    rw [entriesAt_cons he, List.find?_cons, List.find?_cons]
    cases d.name == name
    · exact ih hsites
    · exact he.symm

/-- A table that has taken the entries of some definitions refuses the next one for its fault. -/
theorem enterSite_eq_error_iff {p : DuplicatePolicy} (hp : settings.policy = .known p)
    {pre : List (Module × Definition)} (hpre : ∀ site ∈ pre, site.2.InMachine settings site.1)
    {m : Module} {d : Definition} (hd : d.relative ≠ none) :
    enterSite settings (SymbolTable.ofEntries settings.policy (entriesAt pre)) (m, d) = .error f ↔
      DefinitionFault settings pre (m, d) f := by
  obtain ⟨offset, ho⟩ := Option.ne_none_iff_exists'.1 hd
  have hoff : ∀ site ∈ pre, site.2.relative ≠ none := fun site hs hn => by
    obtain ⟨n, hsome, -⟩ := hpre site hs
    cases hn.symm.trans hsome
  rw [enterSite_eq (Definition.entryIn?_of_relative m ho)]
  by_cases hmax : settings.maxAddress < offset + m.start
  · rw [if_pos hmax, Except.error.injEq]
    constructor
    · rintro rfl
      unfold addressBeyond
      split
      · next hwritable => exact .beyond ho hmax hwritable
      · next hlarge => exact .tooLarge ho hmax (Bool.eq_false_iff.2 hlarge)
    · intro h
      cases h with
      | beyond ho' _ hwritable =>
        cases ho.symm.trans ho'
        exact if_pos hwritable
      | tooLarge ho' _ hlarge =>
        cases ho.symm.trans ho'
        exact if_neg (Bool.eq_false_iff.1 hlarge)
      | repeated ho' hle _ _ =>
        cases ho.symm.trans ho'
        exact absurd hmax (Int.not_lt.2 hle)
  · have hpolicy : (SymbolTable.ofEntries settings.policy (entriesAt pre)).policy =
        settings.policy := SymbolTable.policy_enterAll _ _
    rw [if_neg hmax, SymbolTable.define_eq_error (hpolicy.trans hp)
      (SymbolTable.frozen_enterAll _ _)]
    constructor
    · rintro ⟨herr, old, hold, rfl⟩
      have herr' := hpolicy.symm.trans herr
      rw [lookup_entriesAt herr' hoff] at hold
      obtain ⟨⟨m₀, d₀⟩, hfind, he⟩ := Option.bind_eq_some_iff.1 hold
      obtain ⟨n, -, rfl⟩ := Option.map_eq_some_iff.1 he
      exact .repeated ho (Int.not_lt.1 hmax) herr' hfind
    · intro h
      cases h with
      | beyond ho' hmax' _ => cases ho.symm.trans ho'; exact absurd hmax' hmax
      | tooLarge ho' hmax' _ => cases ho.symm.trans ho'; exact absurd hmax' hmax
      | @repeated _ m₀ _ d₀ _ _ _ herr hfind =>
        obtain ⟨n, hn, -⟩ := hpre _ (List.mem_of_find?_eq_some hfind)
        refine ⟨hpolicy.trans herr, ⟨d₀.name, n + m₀.start, m₀.index⟩, ?_, rfl⟩
        rw [lookup_entriesAt herr hoff, hfind]
        exact Definition.entryIn?_of_relative _ hn

/-- The steps of the first pass fail with the faults of the definitions, where each has an
offset. -/
theorem failsWith_enterSite (hp : settings.policy.isKnown = true)
    (h : ∀ m ∈ s.modules, ∀ d ∈ m.definitions, d.relative ≠ none) :
    FailsWith (enterSite settings) (.empty settings.policy) (DefinitionFault settings)
      s.definitionSites := by
  obtain ⟨p, hp⟩ := settings.policy.isKnown_iff.1 hp
  rintro pre ⟨m, d⟩ post t f hsites hpre
  obtain ⟨hin, -, rfl⟩ := (foldlM_enterSite_eq_ok hp rfl).1 hpre
  obtain ⟨hm, hdm⟩ := Store.mem_definitionSites.1 (hsites ▸ List.mem_append_cons_self)
  exact enterSite_eq_error_iff hp hin (h m hm d hdm)

/-- **The first pass reports the first fault of the definitions.** -/
theorem firstPass_eq_error_iff (hp : settings.policy.isKnown = true) (h : s.AsRead settings) :
    (firstPass settings s).result = .error f ↔
      FirstFault (DefinitionFault settings) s.definitionSites f := by
  rw [result_firstPass, map_eq_error, (failsWith_enterSite hp h.relative_ne_none).eq_error_iff]

/-- The fault of a definition is an error of the program or a numeral error. -/
theorem DefinitionFault.eq_link_or_numeral {pre : List (Module × Definition)}
    {site : Module × Definition} (h : DefinitionFault settings pre site f) :
    (∃ e, f = .link e) ∨ ∃ e, f = .numeral e := by
  cases h with
  | beyond _ _ _ => exact .inl ⟨_, rfl⟩
  | tooLarge _ _ _ => exact .inr ⟨_, rfl⟩
  | repeated _ _ _ _ => exact .inl ⟨_, rfl⟩

/-- An address that is the sum of a number of fewer than `digitLimit` digits and of another one can
be written. -/
theorem Numeral.isWritable_add {a b : Nat} (ha : a < Nat.pow 10 (digitLimit - 1))
    (hb : b < Nat.pow 10 (digitLimit - 1)) : isWritable (a + b) = true := by
  have hlimit : digitLimit = (digitLimit - 1) + 1 := rfl
  generalize digitLimit - 1 = k at ha hb hlimit
  unfold isWritable
  rw [Nat.pow_eq] at ha hb
  rw [hlimit, decide_eq_true_iff, Nat.pow_eq, Nat.pow_succ, ← Int.natCast_add, Int.natAbs_natCast]
  omega

/-! ### Instructions -/

/-- The instructions of a program in order, each with its module and its position there. -/
def Store.instructionSites (s : Store) : List (Module × Instruction × Nat) :=
  s.modules.flatMap fun m => m.instructions.zipIdx.map (Prod.mk m)

/-- What is wrong with an instruction at position `i` of the module `m`, and the failure that
reports it; `t` is the table of the program. -/
inductive InstructionFault (settings : Settings) (s : Store) (t : SymbolTable) :
    Module × Instruction × Nat → Failure → Prop where
  /-- The address is no position in the use list. -/
  | noUse {m : Module} {x : Instruction} {i : Nat} (external : x.classification = .external)
      (outside : m.uses.length ≤ x.address) :
      InstructionFault settings s t (m, x, i)
        (.link ⟨.useOutOfRange x.address i m.uses.length, x.location, m.index⟩)
  /-- The name of the use is not defined. -/
  | undefined {m : Module} {x : Instruction} {i k : Nat} {u : Use}
      (external : x.classification = .external) (position : x.address = k)
      (use : m.uses[k]? = some u) (undefined : u.name ∉ s.definedNames) :
      InstructionFault settings s t (m, x, i)
        (.link ⟨.undefinedSymbol u.name x.address i (Similarity.closeNames t.names u.name),
          x.location, m.index⟩)
  /-- The address is beyond the machine. -/
  | beyond {m : Module} {x : Instruction} {i : Nat} (relative : x.classification = .relative)
      (beyond : settings.machineSize - 1 < x.address + m.start) :
      InstructionFault settings s t (m, x, i)
        (.link ⟨.addressOutOfRange (x.address + m.start) settings.machineSize (some i), x.location,
          m.index⟩)

/-- The fault of an instruction is an error of the program. -/
theorem InstructionFault.eq_link {t : SymbolTable} {site : Module × Instruction × Nat}
    (h : InstructionFault settings s t site f) : ∃ e, f = .link e := by
  cases h <;> exact ⟨_, rfl⟩

section

variable {t : SymbolTable} {m : Module} {x : Instruction} {i k : Nat} {w : MemoryMap}

/-- What the second pass makes of the words at an instruction. -/
def linkSite (settings : Settings) (t : SymbolTable) (w : MemoryMap)
    (site : Module × Instruction × Nat) : Except Failure MemoryMap :=
  (site.1.linkInstruction settings t site.2.2 w site.2.1).result

/-- The symbol of an external instruction is that of the use at its address. -/
theorem Module.externalAddress_eq (hk : x.address = k) :
    m.externalAddress t i x =
      match m.uses[k]? with
      | none   => .error (m.unresolved x (.useOutOfRange x.address i m.uses.length))
      | some u =>
        match t.lookup u.name with
        | some e => .ok e.address
        | none   => .error (m.unresolved x (.undefinedSymbol u.name x.address i
            (Similarity.closeNames t.names u.name))) := by
  rw [Module.externalAddress, elementAt, hk, elementAt?_natCast]
  cases hu : m.uses[k]? with
  | none =>
    have hlen := List.getElem?_eq_none_iff.1 hu
    exact if_pos (Int.ofNat_le.2 hlen)
  | some u =>
    have hlen := (List.getElem?_eq_some_iff.1 hu).1
    refine (if_neg (by omega)).trans ?_
    cases t.lookup u.name <;> rfl

theorem linkSite_of_error (h : m.relocated t i x = .error f) :
    linkSite settings t w (m, x, i) = .error f := by
  rw [linkSite, Module.linkInstruction, h]

theorem linkSite_of_ok {y : Instruction} (h : m.relocated t i x = .ok y) :
    linkSite settings t w (m, x, i) =
      if settings.maxAddress < y.address then
        .error (m.unresolved y (.addressOutOfRange y.address settings.machineSize (some i)))
      else .ok (w.append y.word) := by
  rw [linkSite, Module.linkInstruction, h]

/-- The faults of an instruction, by its classification. -/
theorem instructionFault_iff (hk : x.address = k) :
    InstructionFault settings s t (m, x, i) f ↔
      match x.classification with
      | .immediate => False
      | .absolute  => False
      | .relative  => settings.maxAddress < x.address + m.start ∧
        m.unresolved x
          (.addressOutOfRange (x.address + m.start) settings.machineSize (some i)) = f
      | .external  =>
        match m.uses[k]? with
        | none   => m.unresolved x (.useOutOfRange x.address i m.uses.length) = f
        | some u => u.name ∉ s.definedNames ∧ m.unresolved x (.undefinedSymbol u.name x.address i
          (Similarity.closeNames t.names u.name)) = f := by
  constructor
  · intro h
    cases h with
    | noUse hc hout =>
      rw [hk, Int.ofNat_le, ← List.getElem?_eq_none_iff] at hout
      simp [hc, hout, Module.unresolved]
    | undefined hc hk' hu hundef =>
      obtain rfl : _ = k := Int.ofNat_inj.1 (hk'.symm.trans hk)
      simp [hc, hu, hundef, Module.unresolved]
    | beyond hc hmax =>
      rw [hc]
      exact ⟨hmax, rfl⟩
  · intro h
    split at h
    · exact h.elim
    · exact h.elim
    · next hc =>
      obtain ⟨hmax, rfl⟩ := h
      exact .beyond hc hmax
    · next hc =>
      split at h
      · next hu =>
        subst h
        exact .noUse hc (by rw [hk]; exact Int.ofNat_le.2 (List.getElem?_eq_none_iff.1 hu))
      · next u hu =>
        obtain ⟨hundef, rfl⟩ := h
        exact .undefined hc hk hu hundef

/-- **An instruction that has not been relocated is refused for its fault**, by a table whose
addresses are addresses of the machine. -/
theorem linkSite_eq_error_iff
    (hnames : ∀ name, t.lookup name = none ↔ name ∉ s.definedNames)
    (htable : ∀ name e, t.lookup name = some e → e.address ≤ settings.maxAddress)
    (hr : x.relocated = false) (hk : x.address = k) (hx : x.address ≤ settings.maxAddress) :
    linkSite settings t w (m, x, i) = .error f ↔ InstructionFault settings s t (m, x, i) f := by
  have hmoved (a : Int) : x.relocate a = .ok { x with address := a, relocated := true } :=
    relocate_eq_ok.2 ⟨hr, rfl⟩
  rw [instructionFault_iff hk]
  cases hc : x.classification with
  | immediate =>
    have hrel : m.relocated t i x = .ok x := by rw [Module.relocated, hc]
    rw [linkSite_of_ok hrel, if_neg (Int.not_lt.2 hx)]
    exact iff_of_false nofun id
  | absolute =>
    have hrel : m.relocated t i x = .ok x := by rw [Module.relocated, hc]
    rw [linkSite_of_ok hrel, if_neg (Int.not_lt.2 hx)]
    exact iff_of_false nofun id
  | relative =>
    have hrel : m.relocated t i x = x.relocate (x.address + m.start) := by
      rw [Module.relocated, hc]
    rw [linkSite_of_ok (hrel.trans (hmoved _))]
    by_cases hmax : settings.maxAddress < x.address + m.start
    · rw [if_pos hmax, Except.error.injEq]
      exact (and_iff_right hmax).symm
    · rw [if_neg hmax]
      exact iff_of_false nofun fun h => hmax h.1
  | external =>
    have hrel : m.relocated t i x = m.externalAddress t i x >>= x.relocate := by
      rw [Module.relocated, hc]
    rw [Module.externalAddress_eq hk] at hrel
    cases hu : m.uses[k]? with
    | none =>
      rw [hu] at hrel
      rw [linkSite_of_error hrel, Except.error.injEq]
    | some u =>
      rw [hu] at hrel
      cases hl : t.lookup u.name with
      | none =>
        simp only [hl] at hrel
        rw [linkSite_of_error hrel, Except.error.injEq]
        exact (and_iff_right ((hnames _).1 hl)).symm
      | some e =>
        simp only [hl] at hrel
        -- the address of a definition is one of the machine
        rw [linkSite_of_ok (hrel.trans (hmoved _)), if_neg (Int.not_lt.2 (htable _ e hl))]
        refine iff_of_false nofun fun h => ?_
        cases hl.symm.trans ((hnames _).2 h.1)

end

/-- The second pass goes through the instructions one after another. -/
theorem result_secondPass {t : SymbolTable} (ht : t.frozen = true) :
    (secondPass settings s t).result =
      s.instructionSites.foldlM (linkSite settings t) .empty := by
  have hm (_ : Nat) (w : MemoryMap) (m : Module) :
      (m.linkInstructions settings t w).result =
        m.instructions.zipIdx.foldlM (fun w y => linkSite settings t w (m, y)) w :=
    result_sweep (m.linkInstruction settings t) 0 w m.instructions
  rw [secondPass, SymbolTable.requireFrozen, ht]
  exact (result_sweep_of_forall hm 0 .empty s.modules).trans (foldlM_flatMap_map _ _ _)

/-- The second pass does not look at the addresses of the definitions. -/
theorem result_secondPass_located {t : SymbolTable} (ht : t.frozen = true) :
    (secondPass settings s.located t).result =
      s.instructionSites.foldlM (linkSite settings t) .empty := by
  have hsites : s.located.instructionSites =
      s.instructionSites.map fun site => (site.1.located, site.2) := by
    simp only [Store.instructionSites, Store.located, List.flatMap_map, List.map_flatMap,
      List.map_map]
    rfl
  rw [result_secondPass ht, hsites, List.foldlM_map]
  rfl

theorem Store.mem_instructionSites {m : Module} {x : Instruction} {i : Nat} :
    (m, x, i) ∈ s.instructionSites ↔ m ∈ s.modules ∧ m.instructions[i]? = some x := by
  unfold instructionSites
  rw [List.mem_flatMap]
  constructor
  · rintro ⟨m', hm, h⟩
    obtain ⟨⟨x', i'⟩, hx, he⟩ := List.mem_map.1 h
    cases he
    exact ⟨hm, List.mk_mem_zipIdx_iff_getElem?.1 hx⟩
  · rintro ⟨hm, hx⟩
    exact ⟨m, hm, List.mem_map_of_mem (List.mk_mem_zipIdx_iff_getElem?.2 hx)⟩

/-- With the table that the first pass gives, an instruction of the program is refused for its
fault. -/
theorem linkSite_eq_error_of_firstPass {t : SymbolTable} (hp : settings.policy.isKnown = true)
    (h : s.AsRead settings) (ht : (firstPass settings s).result = .ok t) {m : Module}
    {x : Instruction} {i : Nat} {w : MemoryMap} (hm : m ∈ s.modules) (hx : x ∈ m.instructions) :
    linkSite settings t w (m, x, i) = .error f ↔ InstructionFault settings s t (m, x, i) f := by
  obtain ⟨hdef, -, rfl⟩ := (firstPass_eq_ok hp).1 ht
  have haddress (name : String) :
      ((SymbolTable.ofEntries settings.policy s.entries).freeze.lookup name).map Entry.address =
        s.addressOf settings.policy name :=
    congrFun (Store.addressOf_ofEntries settings.policy s) name
  obtain ⟨k, hk, hle⟩ := h.address m hm x hx
  refine linkSite_eq_error_iff (fun name => ?_) (fun name e he => ?_) (h.relocated m hm x hx) hk
    (hk ▸ hle)
  · rw [← Store.isSome_addressOf h, ← haddress, Option.isSome_map, Option.not_isSome_iff_eq_none]
  · have ha := haddress name
    rw [he] at ha
    exact Store.addressOf_le hdef ha.symm

/-- With the table that the first pass gives, the steps of the second fail with the faults of the
instructions. -/
theorem failsWith_linkSite {t : SymbolTable} (hp : settings.policy.isKnown = true)
    (h : s.AsRead settings) (ht : (firstPass settings s).result = .ok t) :
    FailsWith (linkSite settings t) .empty (fun _ => InstructionFault settings s t)
      s.instructionSites := by
  rintro pre ⟨m, x, i⟩ post w f hsites -
  obtain ⟨hm, hx⟩ := Store.mem_instructionSites.1 (hsites ▸ List.mem_append_cons_self)
  exact linkSite_eq_error_of_firstPass hp h ht hm (List.mem_of_getElem? hx)

/-- **The second pass reports the first fault of the instructions.** -/
theorem secondPass_eq_error_iff {t : SymbolTable} (hp : settings.policy.isKnown = true)
    (h : s.AsRead settings) (ht : (firstPass settings s).result = .ok t) :
    (secondPass settings (firstPass settings s).reached t).result = .error f ↔
      FirstFault (fun _ => InstructionFault settings s t) s.instructionSites f := by
  have hfrozen : t.frozen = true := by
    obtain ⟨-, -, rfl⟩ := (firstPass_eq_ok hp).1 ht
    rfl
  rw [reached_firstPass ht, result_secondPass_located hfrozen,
    (failsWith_linkSite hp h ht).eq_error_iff]

/-! ### Both passes -/

/-- Where the numbers of a laid-out program have fewer digits than may be written, the fault of a
definition is an error of the program. -/
theorem DefinitionFault.eq_link (h : s.LaidOut)
    (hlen : s.totalLength < Nat.pow 10 (Numeral.digitLimit - 1)) {m : Module} (hm : m ∈ s.modules)
    {d : Definition} {n : Nat} (hd : d.relative = some (n : Int))
    (hn : n < Nat.pow 10 (Numeral.digitLimit - 1)) {pre : List (Module × Definition)}
    (hf : DefinitionFault settings pre (m, d) f) : ∃ e, f = .link e := by
  cases hf with
  | beyond _ _ _ => exact ⟨_, rfl⟩
  | tooLarge ho _ hlarge =>
    cases hd.symm.trans ho
    obtain ⟨i, hi⟩ := List.mem_iff_getElem?.1 hm
    have hstart : m.start ≤ s.totalLength :=
      (h i m hi).2 ▸ Nat.le_trans (Nat.le_add_right _ _) (Store.startOf_add_length_le hi)
    cases (Numeral.isWritable_add hn (Nat.lt_of_le_of_lt hstart hlen)).symm.trans hlarge
  | repeated _ _ _ _ => exact ⟨_, rfl⟩

variable {tokens : List Token}

/-- **The passes report the first fault in program order.**  Of a program that has been accepted the
first pass fails when a definition has a fault, and with the fault of the first one; then the second
pass, with the table of the first, fails when an instruction has a fault, and with the fault of the
first one.  The fault of a definition is an error of the program, unless its address has too many
digits to be written; that of an instruction always is. -/
theorem passes_report_first_fault (hv : settings.IsValid)
    (hs : Store.parse settings tokens = .ok s) :
    ((∃ f, (firstPass settings s).result = .error f) ↔
      ∃ pre site post f, s.definitionSites = pre ++ site :: post ∧
        DefinitionFault settings pre site f) ∧
    (∀ f, (firstPass settings s).result = .error f ↔
      FirstFault (DefinitionFault settings) s.definitionSites f) ∧
    (s.totalLength < Nat.pow 10 (Numeral.digitLimit - 1) →
      ∀ m ∈ s.modules, ∀ d ∈ m.definitions, ∀ n : Nat, d.relative = some (n : Int) →
        n < Nat.pow 10 (Numeral.digitLimit - 1) →
          ∀ pre f, DefinitionFault settings pre (m, d) f → ∃ e, f = .link e) ∧
    ∀ t, (firstPass settings s).result = .ok t →
      ((∃ f, (secondPass settings (firstPass settings s).reached t).result = .error f) ↔
        ∃ site ∈ s.instructionSites, ∃ f, InstructionFault settings s t site f) ∧
      ∀ f, (secondPass settings (firstPass settings s).reached t).result = .error f ↔
        FirstFault (fun _ => InstructionFault settings s t) s.instructionSites f := by
  have hread := Store.asRead_of_parse hs
  refine ⟨?_, fun f => firstPass_eq_error_iff hv.1 hread, ?_, fun t ht => ⟨?_, fun f =>
    secondPass_eq_error_iff hv.1 hread ht⟩⟩
  · rw [← exists_firstFault_iff]
    exact exists_congr fun f => firstPass_eq_error_iff hv.1 hread
  · intro hlen m hm d _ n hd hn pre f hf
    exact hf.eq_link (Store.laidOut_of_parse hs) hlen hm hd hn
  · rw [← exists_firstFault_iff_mem]
    exact exists_congr fun f => secondPass_eq_error_iff hv.1 hread ht

/-- Two modules that define the same symbol. -/
def doubleDefinition : List Token :=
  Token.inLine ["1", "z", "0", "0", "0", "1", "z", "0", "0", "0"]

/-- Two modules; the second one refers to no use, and then to a name that is not defined. -/
def missingUse : List Token :=
  Token.inLine
    ["1", "x", "0", "0", "1", "I", "1000",
      "0", "1", "y", "3", "R", "1001", "E", "2007", "E", "2000"]

/-- The first pass reports the second definition of `z`, and the second pass the use that the module
does not have. -/
theorem passes_report_first_fault_bothPasses :
    (∃ s, Settings.IsValid {} ∧ Store.parse {} doubleDefinition = .ok s ∧
      FirstFault (DefinitionFault {}) s.definitionSites
        (.link ⟨.duplicate "z" 0, some ⟨"-", 1, 7⟩, 1⟩)) ∧
    ∃ s t, Settings.IsValid {} ∧ Store.parse {} missingUse = .ok s ∧
      (firstPass {} s).result = .ok t ∧
        FirstFault (fun _ => InstructionFault {} s t) s.instructionSites
          (.link ⟨.useOutOfRange 7 1 1, some ⟨"-", 1, 15⟩, 1⟩) := by
  have hv : Settings.IsValid {} := by decide
  constructor
  · have hs : Store.parse {} doubleDefinition = .ok _ := rfl
    exact ⟨_, hv, hs, ((passes_report_first_fault hv hs).2.1 _).1 rfl⟩
  · have hs : Store.parse {} missingUse = .ok _ := rfl
    exact ⟨_, _, hv, hs, rfl, (((passes_report_first_fault hv hs).2.2.2 _ rfl).2 _).1 rfl⟩

end Linkage
