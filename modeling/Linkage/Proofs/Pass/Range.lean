import Linkage.Proofs.Capacity
import Linkage.Proofs.Pass.Faults

/-!
# Passes — which numbers they keep in range

A program that has been read holds natural numbers.  One that has been built by hand may hold any
integers, and the passes look at one side of each bound only: an address must not be beyond the
machine, a position must not be beyond the use list.  A position before the first use counts from
the end (`exists_elementAt?_iff`).

* `Store.Bounded` is what two passes that succeed ensure, `Store.InRange` what a linked program
  should be: every symbol and every address in the machine, every position in its use list.
* **The two agree where nothing is negative** (`inRange_iff_nonNegative`).  A negative number goes
  through: an immediate instruction that holds one is linked as it is, and an external one takes a
  use from the end of the list.
* A pass that refuses a program says that an address is beyond the machine or that an instruction
  cannot be resolved; besides that the first pass refuses repeated names, and the second has a fault
  at a position that is too far before the first use (`linkSite_eq_error`).
-/

namespace Linkage

variable {settings : Settings} {s : Store} {m : Module} {x : Instruction} {t : SymbolTable}
  {w : MemoryMap} {f : Failure}

/-! ### Numbers in range -/

/-- The number that an instruction of the module holds when names are looked up: its address,
shifted where it is relative. -/
def Module.shiftedAddress (m : Module) (x : Instruction) : Int :=
  match x.classification with
  | .relative => x.address + m.start
  | _         => x.address

namespace Store

/-- The definitions and the instructions of the program hold no negative numbers. -/
structure NonNegative (s : Store) : Prop where
  definitions : ∀ e ∈ s.entries, 0 ≤ e.address
  instructions : ∀ m ∈ s.modules, ∀ x ∈ m.instructions, 0 ≤ m.shiftedAddress x

/-- Nothing of the program `s` is above its bound; `t` is its table, and `s'` what the passes make
of it. -/
structure Bounded (settings : Settings) (t : SymbolTable) (s s' : Store) : Prop where
  symbols : ∀ e ∈ t.entries, e.address ≤ settings.maxAddress
  addresses : ∀ m ∈ s'.modules, ∀ x ∈ m.instructions, x.address ≤ settings.maxAddress
  /-- A position may count from the end of the use list. -/
  uses : ∀ m ∈ s.modules, ∀ x ∈ m.instructions, x.classification = .external →
    -(m.uses.length : Int) ≤ x.address ∧ x.address < m.uses.length

/-- Everything of the program `s` is in its range; `t` is its table, and `s'` what the passes make
of it. -/
structure InRange (settings : Settings) (t : SymbolTable) (s s' : Store) : Prop where
  symbols : ∀ e ∈ t.entries, settings.IsAddress e.address
  addresses : ∀ m ∈ s'.modules, ∀ x ∈ m.instructions, settings.IsAddress x.address
  uses : ∀ m ∈ s.modules, ∀ x ∈ m.instructions, x.classification = .external →
    0 ≤ x.address ∧ x.address < m.uses.length

end Store

/-! ### Positions -/

theorem signedIndex?_eq_some {n i : Nat} {k : Int} :
    signedIndex? n k = some i ↔ i < n ∧ (k = i ∨ k = i - n) := by
  unfold signedIndex?
  simp only [Option.ite_none_right_eq_some, Option.some.injEq]
  split <;> omega

/-- There is an element at the positions of a list and, from its end, at as many negative ones. -/
theorem exists_elementAt?_iff {α : Type} {xs : List α} {k : Int} :
    (∃ a, elementAt? xs k = some a) ↔ -(xs.length : Int) ≤ k ∧ k < xs.length := by
  constructor
  · rintro ⟨a, ha⟩
    obtain ⟨i, hi, -⟩ := Option.bind_eq_some_iff.1 ha
    obtain ⟨hlt, hk⟩ := signedIndex?_eq_some.1 hi
    omega
  · intro hk
    obtain ⟨i, hlt, hi⟩ : ∃ i : Nat, i < xs.length ∧ (k = i ∨ k = i - xs.length) := by
      by_cases h : k < 0
      · exact ⟨(k + xs.length).toNat, by omega, by omega⟩
      · exact ⟨k.toNat, by omega, by omega⟩
    refine ⟨xs[i], ?_⟩
    rw [elementAt?, signedIndex?_eq_some.2 ⟨hlt, hi⟩, Option.bind_some,
      List.getElem?_eq_getElem hlt]

/-! ### Passes that succeed -/

namespace Store

/-- The instructions of an image are those of the program, linked. -/
theorem exists_of_mem_image {policy : PolicySetting} {m' : Module} {x' : Instruction}
    (hm : m' ∈ (s.image policy).modules) (hx : x' ∈ m'.instructions) :
    ∃ m ∈ s.modules, ∃ x ∈ m.instructions, m.linkedInstruction (s.addressOf policy) x = x' := by
  obtain ⟨i, hi⟩ := List.mem_iff_getElem?.1 hm
  obtain ⟨m, hm₀, -, hxs⟩ := exists_of_getElem?_image hi
  rw [hxs] at hx
  obtain ⟨x, hx₀, rfl⟩ := List.mem_map.1 hx
  exact ⟨m, List.mem_of_getElem? hm₀, x, hx₀, rfl⟩

end Store

/-- An instruction without a name to look up gets the number it holds. -/
theorem Module.finalAddress?_of_ne (addressOf : String → Option Int)
    (h : x.classification ≠ .external) :
    m.finalAddress? addressOf x = some (m.shiftedAddress x) := by
  unfold finalAddress? shiftedAddress
  cases hc : x.classification with
  | external => exact absurd hc h
  | _ => rfl

/-- An external instruction holds the position of its use. -/
theorem Module.shiftedAddress_of_external (h : x.classification = .external) :
    m.shiftedAddress x = x.address := by
  rw [shiftedAddress, h]

theorem Module.address_linkedInstruction_of_ne (addressOf : String → Option Int)
    (h : x.classification ≠ .external) :
    (m.linkedInstruction addressOf x).address = m.shiftedAddress x := by
  rw [linkedInstruction, finalAddress?_of_ne addressOf h]
  rfl

/-- An external instruction that links gets the address of an entry. -/
theorem Store.exists_entry_of_links {policy : PolicySetting}
    (h : m.Links settings (s.addressOf policy) x) (hc : x.classification = .external) :
    ∃ e ∈ s.entries, (m.linkedInstruction (s.addressOf policy) x).address = e.address := by
  obtain ⟨a, ha, -, -⟩ := h
  have hname := ha
  rw [Module.finalAddress?, hc] at hname
  obtain ⟨u, -, hu⟩ := Option.bind_eq_some_iff.1 hname
  obtain ⟨e, he, rfl⟩ := exists_of_addressOf hu
  refine ⟨e, he, ?_⟩
  rw [Module.linkedInstruction, ha]
  rfl

/-- What two passes that succeed have seen of the program and made of it. -/
theorem passes_eq_ok (hp : settings.policy.isKnown = true)
    (ht : (firstPass settings s).result = .ok t)
    (hw : (secondPass settings (firstPass settings s).reached t).result = .ok w) :
    t.entries = s.entries ∧ (∀ e ∈ s.entries, e.address ≤ settings.maxAddress) ∧
      (secondPass settings (firstPass settings s).reached t).reached = s.image settings.policy ∧
        ∀ m ∈ s.modules, ∀ x ∈ m.instructions,
          m.Links settings (s.addressOf settings.policy) x := by
  obtain ⟨hd, -, rfl⟩ := (firstPass_eq_ok hp).1 ht
  rw [reached_firstPass ht] at hw ⊢
  refine ⟨SymbolTable.entries_ofEntries settings.policy s.entries, fun e he => ?_, ?_,
    (secondPass_located.1 hw).1⟩
  · obtain ⟨m, hm, d, hdm, hde⟩ := Store.mem_entries.1 he
    obtain ⟨e', he', hle⟩ := Definition.inMachine_iff.1 (hd m hm d hdm)
    cases hde.symm.trans he'
    exact hle
  · rw [reached_secondPass hw, Store.addressOf_ofEntries]
    rfl

/-- Two passes that succeed leave nothing above its bound. -/
theorem bounded_of_passes (hp : settings.policy.isKnown = true)
    (ht : (firstPass settings s).result = .ok t)
    (hw : (secondPass settings (firstPass settings s).reached t).result = .ok w) :
    s.Bounded settings t (secondPass settings (firstPass settings s).reached t).reached := by
  obtain ⟨hentries, hle, hreached, hlinks⟩ := passes_eq_ok hp ht hw
  rw [hreached]
  refine ⟨hentries ▸ hle, fun m' hm' x' hx' => ?_, fun m hm x hx hc => ?_⟩
  · obtain ⟨m, hm, x, hx, rfl⟩ := Store.exists_of_mem_image hm' hx'
    obtain ⟨a, ha, hmax, -⟩ := hlinks m hm x hx
    rw [Module.linkedInstruction, ha]
    exact hmax
  · obtain ⟨a, ha, -, -⟩ := hlinks m hm x hx
    rw [Module.finalAddress?, hc] at ha
    obtain ⟨u, hu, -⟩ := Option.bind_eq_some_iff.1 ha
    exact exists_elementAt?_iff.1 ⟨u, hu⟩

/-- **A linked program is in range where nothing is negative.** -/
theorem inRange_iff_nonNegative (hp : settings.policy.isKnown = true)
    (ht : (firstPass settings s).result = .ok t)
    (hw : (secondPass settings (firstPass settings s).reached t).result = .ok w) :
    s.InRange settings t (secondPass settings (firstPass settings s).reached t).reached ↔
      s.NonNegative := by
  have hbounded := bounded_of_passes hp ht hw
  obtain ⟨hentries, -, hreached, hlinks⟩ := passes_eq_ok hp ht hw
  rw [hreached] at hbounded ⊢
  constructor
  · intro h
    refine ⟨fun e he => (h.symbols e (hentries ▸ he)).1, fun m hm x hx => ?_⟩
    by_cases hc : x.classification = .external
    · rw [Module.shiftedAddress_of_external hc]
      exact (h.uses m hm x hx hc).1
    · rw [← Module.address_linkedInstruction_of_ne (s.addressOf settings.policy) hc]
      have hm' : m.located.linked (s.addressOf settings.policy) ∈
          (s.image settings.policy).modules :=
        List.mem_map_of_mem (List.mem_map_of_mem hm)
      exact (h.addresses _ hm' _ (List.mem_map_of_mem hx)).1
  · intro h
    refine ⟨fun e he => ⟨h.definitions e (hentries ▸ he), hbounded.symbols e he⟩,
      fun m' hm' x' hx' => ⟨?_, hbounded.addresses m' hm' x' hx'⟩, fun m hm x hx hc => ?_⟩
    · obtain ⟨m, hm, x, hx, rfl⟩ := Store.exists_of_mem_image hm' hx'
      by_cases hc : x.classification = .external
      · obtain ⟨e, he, heq⟩ := Store.exists_entry_of_links (hlinks m hm x hx) hc
        exact heq ▸ h.definitions e he
      · rw [Module.address_linkedInstruction_of_ne _ hc]
        exact h.instructions m hm x hx
    · have hx₀ := h.instructions m hm x hx
      rw [Module.shiftedAddress_of_external hc] at hx₀
      exact ⟨hx₀, (hbounded.uses m hm x hx hc).2⟩

/-! ### Passes that refuse -/

/-- The error says that an address is beyond the machine. -/
def Cause.IsOutOfRange : Cause → Prop
  | .addressOutOfRange _ _ _ => True
  | _                        => False

/-- The error says that an external instruction cannot be resolved. -/
def Cause.IsUnresolved : Cause → Prop
  | .useOutOfRange _ _ _     => True
  | .undefinedSymbol _ _ _ _ => True
  | _                        => False

/-- The error says that a name is repeated. -/
def Cause.IsDuplicate : Cause → Prop
  | .duplicate _ _ => True
  | _              => False

/-- A program that is yet to be linked: its definitions have offsets, its instructions have not been
relocated, and a message can show its numbers. -/
structure Store.Unlinked (s : Store) : Prop where
  offset : ∀ m ∈ s.modules, ∀ d ∈ m.definitions,
    ∃ e, d.entryIn? m = some e ∧ Numeral.isWritable e.address = true
  relocated : ∀ m ∈ s.modules, ∀ x ∈ m.instructions, x.relocated = false
  writable : ∀ m ∈ s.modules, ∀ x ∈ m.instructions,
    Numeral.isWritable x.address = true ∧ Numeral.isWritable (m.shiftedAddress x) = true

/-- The first pass refuses an address beyond the machine, and where that is an error a repeated
name. -/
theorem Store.Unlinked.firstPass_eq_error (h : s.Unlinked) (hp : settings.policy.isKnown = true)
    (hf : (firstPass settings s).result = .error f) :
    ∃ e, f = .link e ∧
      (e.cause.IsOutOfRange ∨ settings.policy = .known .error ∧ e.cause.IsDuplicate) := by
  have hoffset : ∀ m ∈ s.modules, ∀ d ∈ m.definitions, d.relative ≠ none := by
    intro m hm d hd hnone
    obtain ⟨e, he, -⟩ := h.offset m hm d hd
    rw [Definition.entryIn?, hnone] at he
    cases he
  rw [result_firstPass, map_eq_error, (failsWith_enterSite hp hoffset).eq_error_iff] at hf
  obtain ⟨pre, ⟨m, d⟩, post, hsites, hfault, -⟩ := hf
  cases hfault with
  | beyond _ _ _ => exact ⟨_, rfl, .inl trivial⟩
  | tooLarge hrel _ hlarge =>
    obtain ⟨hm, hd⟩ := Store.mem_definitionSites.1 (hsites ▸ List.mem_append_cons_self)
    obtain ⟨e, he, hwritable⟩ := h.offset m hm d hd
    cases (Definition.entryIn?_of_relative m hrel).symm.trans he
    cases hwritable.symm.trans hlarge
  | repeated _ _ hpolicy _ => exact ⟨_, rfl, .inr ⟨hpolicy, trivial⟩⟩

/-- Looking up the symbol of an external instruction fails as unresolved, or with a fault at a
position too far before the first use. -/
theorem Module.externalAddress_eq_error {i : Nat} (h : m.externalAddress t i x = .error f) :
    (∃ e, f = .link e ∧ e.cause.IsUnresolved) ∨
      x.address < -(m.uses.length : Int) ∧ ∃ g, f = .fault g := by
  unfold Module.externalAddress at h
  split at h
  · cases h
    exact .inl ⟨_, rfl, trivial⟩
  · next hlt =>
    cases hu : elementAt? m.uses x.address with
    | none =>
      rw [elementAt, hu] at h
      cases h
      have hnone : ¬ ∃ u, elementAt? m.uses x.address = some u := by simp [hu]
      rw [exists_elementAt?_iff] at hnone
      exact .inr ⟨by omega, _, rfl⟩
    | some u =>
      rw [elementAt, hu] at h
      simp only at h
      split at h
      · cases h
      · cases h
        exact .inl ⟨_, rfl, trivial⟩

/-- The second pass refuses an instruction for one of three reasons. -/
theorem linkSite_eq_error {i : Nat} (hr : x.relocated = false)
    (h : linkSite settings t w (m, x, i) = .error f) :
    (∃ e, f = .link e ∧ (e.cause.IsOutOfRange ∨ e.cause.IsUnresolved)) ∨
      x.classification = .external ∧ x.address < -(m.uses.length : Int) ∧ ∃ g, f = .fault g := by
  have hmoved (a : Int) : x.relocate a = .ok { x with address := a, relocated := true } :=
    relocate_eq_ok.2 ⟨hr, rfl⟩
  cases hrel : m.relocated t i x with
  | ok y =>
    rw [linkSite_of_ok hrel] at h
    split at h
    · cases h
      exact .inl ⟨_, rfl, .inl trivial⟩
    · cases h
  | error g =>
    cases (linkSite_of_error hrel).symm.trans h
    -- only looking up a symbol can fail before the address is looked at
    cases hc : x.classification with
    | immediate => rw [Module.relocated, hc] at hrel; cases hrel
    | absolute => rw [Module.relocated, hc] at hrel; cases hrel
    | relative => rw [Module.relocated, hc, hmoved] at hrel; cases hrel
    | external =>
      rw [Module.relocated, hc] at hrel
      rcases bind_eq_error.1 hrel with he | ⟨a, -, he⟩
      · rcases Module.externalAddress_eq_error he with ⟨e, rfl, hun⟩ | hfault
        · exact .inl ⟨e, rfl, .inr hun⟩
        · exact .inr ⟨rfl, hfault⟩
      · cases (hmoved a).symm.trans he

/-- **The second pass refuses** an address beyond the machine and an instruction that cannot be
resolved; before the first use it has a fault. -/
theorem Store.Unlinked.secondPass_eq_error (h : s.Unlinked) (hp : settings.policy.isKnown = true)
    (ht : (firstPass settings s).result = .ok t)
    (hf : (secondPass settings (firstPass settings s).reached t).result = .error f) :
    (∃ e, f = .link e ∧ (e.cause.IsOutOfRange ∨ e.cause.IsUnresolved)) ∨
      ∃ m ∈ s.modules, ∃ x ∈ m.instructions,
        x.classification = .external ∧ x.address < -(m.uses.length : Int) ∧ ∃ g, f = .fault g := by
  have hfrozen : t.frozen = true := by
    obtain ⟨-, -, rfl⟩ := (firstPass_eq_ok hp).1 ht
    rfl
  rw [reached_firstPass ht, result_secondPass_located hfrozen, foldlM_eq_error] at hf
  obtain ⟨pre, ⟨m, x, i⟩, post, w, hsites, -, hf⟩ := hf
  obtain ⟨hm, hx⟩ := Store.mem_instructionSites.1 (hsites ▸ List.mem_append_cons_self)
  have hmem := List.mem_of_getElem? hx
  exact (linkSite_eq_error (h.relocated m hm x hmem) hf).imp_right
    fun hfault => ⟨m, hm, x, hmem, hfault⟩

/-! ### Both passes -/

/-- **What the passes keep in range.**  Two passes that succeed leave nothing above its bound, and
everything is in its range exactly where nothing is negative.  A program that is refused is refused
for an address, for a name or for an instruction that cannot be resolved; the second pass has a
fault besides, and only where the position of a use is negative. -/
theorem passes_range (hv : settings.IsValid) (s : Store) :
    (∀ t w, (firstPass settings s).result = .ok t →
      (secondPass settings (firstPass settings s).reached t).result = .ok w →
        s.Bounded settings t (secondPass settings (firstPass settings s).reached t).reached ∧
          (s.InRange settings t (secondPass settings (firstPass settings s).reached t).reached ↔
            s.NonNegative)) ∧
    (s.Unlinked →
      (∀ f, (firstPass settings s).result = .error f → ∃ e, f = .link e ∧
        (e.cause.IsOutOfRange ∨ settings.policy = .known .error ∧ e.cause.IsDuplicate)) ∧
      ∀ t f, (firstPass settings s).result = .ok t →
        (secondPass settings (firstPass settings s).reached t).result = .error f →
          (∃ e, f = .link e ∧ (e.cause.IsOutOfRange ∨ e.cause.IsUnresolved)) ∨
            ¬ s.NonNegative ∧ ∃ g, f = .fault g) := by
  refine ⟨fun t w ht hw => ⟨bounded_of_passes hv.1 ht hw, inRange_iff_nonNegative hv.1 ht hw⟩,
    fun h => ⟨fun f => h.firstPass_eq_error hv.1, fun t f ht hf => ?_⟩⟩
  refine (h.secondPass_eq_error hv.1 ht hf).imp_right ?_
  rintro ⟨m, hm, x, hx, hc, hlt, hfault⟩
  refine ⟨fun hn => ?_, hfault⟩
  have hx₀ := hn.instructions m hm x hx
  rw [Module.shiftedAddress_of_external hc] at hx₀
  omega

theorem Numeral.isWritable_of_natAbs_lt {n : Int} (h : n.natAbs < 10) : isWritable n = true := by
  have hlimit : 1 ≤ digitLimit := by decide
  unfold isWritable
  generalize digitLimit = limit at hlimit
  exact decide_eq_true (Nat.lt_of_lt_of_le h (Nat.pow_le_pow_right (Nat.succ_pos 9) hlimit))

/-- A program of two definitions and two uses, whose external instruction takes the use at the
position. -/
def takingUse (position : Int) : Store := Store.empty.append
  { definitions := [.fresh "a" (some 0) none, .fresh "b" (some 1) none]
    uses := [⟨"a", none⟩, ⟨"b", none⟩]
    instructions := [.fresh .external 1 position none, .fresh .immediate 2 0 none] }

theorem unlinked_takingUse {position : Int} (h : position.natAbs < 10) :
    (takingUse position).Unlinked := by
  have hzero : Numeral.isWritable 0 = true := Numeral.isWritable_of_natAbs_lt (by decide)
  have hone : Numeral.isWritable 1 = true := Numeral.isWritable_of_natAbs_lt (by decide)
  have hposition := Numeral.isWritable_of_natAbs_lt h
  refine ⟨List.forall_mem_singleton.2 ?_, List.forall_mem_singleton.2 ?_,
    List.forall_mem_singleton.2 ?_⟩
  · exact List.forall_mem_cons.2 ⟨⟨_, rfl, hzero⟩, List.forall_mem_singleton.2 ⟨_, rfl, hone⟩⟩
  · exact List.forall_mem_cons.2 ⟨rfl, List.forall_mem_singleton.2 rfl⟩
  · exact List.forall_mem_cons.2
      ⟨⟨hposition, hposition⟩, List.forall_mem_singleton.2 ⟨hzero, hzero⟩⟩

/-- At position -1 the last of the two uses is taken, and at position -3 there is a fault. -/
theorem passes_range_takingUse :
    Settings.IsValid {} ∧ (takingUse (-3)).Unlinked ∧
      (∃ t w, (firstPass {} (takingUse (-1))).result = .ok t ∧
        (secondPass {} (firstPass {} (takingUse (-1))).reached t).result = .ok w ∧
          w.words = [1001, 2000] ∧ ¬ (takingUse (-1)).InRange {} t
            (secondPass {} (firstPass {} (takingUse (-1))).reached t).reached) ∧
      ∃ t f, (firstPass {} (takingUse (-3))).result = .ok t ∧
        (secondPass {} (firstPass {} (takingUse (-3))).reached t).result = .error f ∧
          ¬ (takingUse (-3)).NonNegative ∧ ∃ g, f = .fault g := by
  have hv : Settings.IsValid {} := by decide
  have hunlinked : (takingUse (-3)).Unlinked := unlinked_takingUse (by decide)
  let t := (SymbolTable.ofEntries (.known .error) (takingUse (-1)).entries).freeze
  refine ⟨hv, hunlinked, ⟨t, ⟨[1001, 2000]⟩, rfl, rfl, rfl, fun h => ?_⟩, t,
    .fault .noSuchPosition, rfl, rfl, ?_⟩
  · have hn := ((passes_range hv (takingUse (-1))).1 t ⟨[1001, 2000]⟩ rfl rfl).2.1 h
    exact absurd (hn.instructions _ List.mem_cons_self _ List.mem_cons_self) (by decide)
  · rcases ((passes_range hv (takingUse (-3))).2 hunlinked).2 t (.fault .noSuchPosition) rfl rfl
      with ⟨e, he, -⟩ | hfault
    · cases he
    · exact hfault

/-- **A negative address goes through both passes.** -/
theorem passes_negative :
    ¬ ∀ (s : Store) (t : SymbolTable) (w : MemoryMap), (firstPass {} s).result = .ok t →
      (secondPass {} (firstPass {} s).reached t).result = .ok w →
        s.InRange {} t (secondPass {} (firstPass {} s).reached t).reached := by
  intro h
  let s : Store := Store.empty.append { instructions := [.fresh .immediate 1 (-5) none] }
  let t := (SymbolTable.ofEntries (.known .error) s.entries).freeze
  have ht : (firstPass {} s).result = .ok t := rfl
  have hw : (secondPass {} (firstPass {} s).reached t).result = .ok ⟨[995]⟩ := rfl
  have hx := ((h s t _ ht hw).addresses _ List.mem_cons_self _ List.mem_cons_self).1
  exact absurd hx (by decide)

end Linkage
