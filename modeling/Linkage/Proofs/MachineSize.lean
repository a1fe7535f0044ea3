import Linkage.Proofs.Link
import Mathlib.Data.Int.LeastGreatest

/-!
# Linking — machines of different sizes

The size of the machine is looked at in three places: when the address of a word is read, when a
definition is entered, and when an instruction has got its address.  Each time it bounds an address
and has no part in what comes out.  So whatever goes through on one machine goes through on a larger
one and comes to the same, stage by stage: a word (`WritesWord.mono`), a step of the reader and a run
of it (`Reading.step_mono`, `Reading.run_mono`), a whole program (`Store.parse_mono`), and what the
passes check of it (`Store.Linkable.mono`).

`link_machineSize` states this for a link.  Since it goes through on all larger machines, there is a
least machine on which it does.
-/

namespace Linkage

variable {settings settings' : Settings}

/-! ### Reading -/

theorem WritesWord.mono (h : settings.machineSize ≤ settings'.machineSize) {cs : List Char}
    {o a : Nat} (hw : WritesWord settings cs o a) : WritesWord settings' cs o a := by
  obtain ⟨c, ds, hcs, hc, ho, ha, hmax⟩ := hw
  exact ⟨c, ds, hcs, hc, ho, ha, Int.le_trans hmax (Int.sub_le_sub_right h 1)⟩

namespace Reading

theorem opcodeAndAddress_mono (h : settings.machineSize ≤ settings'.machineSize) {t : Token}
    {i j : Nat} {word : Nat × Nat} (hw : opcodeAndAddress settings t i j = .ok word) :
    opcodeAndAddress settings' t i j = .ok word := by
  obtain ⟨o, a⟩ := word
  exact opcodeAndAddress_eq_ok.2 ((opcodeAndAddress_eq_ok.1 hw).mono h)

/-- A step for a machine is the same step for a larger one. -/
theorem step_mono (h : settings.machineSize ≤ settings'.machineSize) {r r' : Reading} {t : Token}
    (hs : r.step settings t = .ok r') : r.step settings' t = .ok r' := by
  unfold step at hs ⊢
  cases hrole : r.state.role with
  | count | definitionSymbol | definitionLocation | use | instructionType =>
    rw [hrole] at hs
    exact hs
  | instructionWord =>
    -- only here is the size looked at
    rw [hrole] at hs
    obtain ⟨kind, hkind, hs⟩ := bind_eq_ok.1 hs
    obtain ⟨word, hword, hs⟩ := bind_eq_ok.1 hs
    exact bind_eq_ok.2 ⟨kind, hkind, bind_eq_ok.2 ⟨word, opcodeAndAddress_mono h hword, hs⟩⟩

/-- A run for a machine is the same run for a larger one. -/
theorem run_mono (h : settings.machineSize ≤ settings'.machineSize) {r r' : Reading}
    {ts : List Token} (hr : run settings r ts = .ok r') : run settings' r ts = .ok r' := by
  induction ts generalizing r with
  | nil => exact hr
  | cons t ts ih =>
    rw [run, List.foldlM_cons] at hr ⊢
    obtain ⟨r₁, h₁, hr⟩ := bind_eq_ok.1 hr
    exact bind_eq_ok.2 ⟨r₁, step_mono h h₁, ih hr⟩

end Reading

/-- A program that is accepted for a machine is the same program for a larger one. -/
theorem Store.parse_mono (h : settings.machineSize ≤ settings'.machineSize) {ts : List Token}
    {s : Store} (hs : parse settings ts = .ok s) : parse settings' ts = .ok s := by
  obtain ⟨r, hr, hs⟩ := bind_eq_ok.1 hs
  exact bind_eq_ok.2 ⟨r, Reading.run_mono h hr, hs⟩

/-! ### Linking -/

/-- A program that links on a machine links on a larger one. -/
theorem Store.Linkable.mono (h : settings.machineSize ≤ settings'.machineSize)
    (hp : settings'.policy = settings.policy) {s : Store} (hl : s.Linkable settings) :
    s.Linkable settings' := by
  have hmax : settings.maxAddress ≤ settings'.maxAddress := Int.sub_le_sub_right h 1
  refine ⟨fun m hm d hd => ?_, hp ▸ hl.distinct, hl.resolved, fun m hm x hx hk => ?_⟩
  · obtain ⟨offset, ho, hle⟩ := hl.defined m hm d hd
    exact ⟨offset, ho, Int.le_trans hle hmax⟩
  · exact Int.le_trans (hl.relative m hm x hx hk) hmax

variable {n n' : Int} {p : DuplicatePolicy} {w : Bool} {tokens : List Token} {r : LinkResult}

/-- A link that succeeds on a machine comes to the same on a larger one. -/
theorem link_mono (hn : 1 ≤ n) (h : n ≤ n') (hn' : n' ≤ wordRadix)
    (hr : (link ⟨n, .known p, w⟩ tokens).result = .ok r) :
    (link ⟨n', .known p, w⟩ tokens).result = .ok r := by
  have hv : Settings.IsValid ⟨n, .known p, w⟩ := ⟨rfl, hn, Int.le_trans h hn'⟩
  have hv' : Settings.IsValid ⟨n', .known p, w⟩ := ⟨rfl, Int.le_trans hn h, hn'⟩
  have hsize : Settings.machineSize ⟨n, .known p, w⟩ ≤ Settings.machineSize ⟨n', .known p, w⟩ := h
  obtain ⟨s, hs, hl, rfl⟩ := (link_eq_ok hv).1 hr
  have hl' : s.Linkable ⟨n', .known p, w⟩ := hl.mono hsize rfl
  exact (link_eq_ok hv').2 ⟨s, Store.parse_mono hsize hs, hl', rfl⟩

/-- **The machine size is only a bound.**  A link that succeeds on a machine succeeds on every
larger one, with the same modules, symbols, words and warnings.  So where a program links at all
there is a size from which on it does, always with the same result, and below which it does not. -/
theorem link_machineSize (p : DuplicatePolicy) (w : Bool) (tokens : List Token) :
    (∀ n n' r, 1 ≤ n → n ≤ n' → n' ≤ wordRadix →
      (link ⟨n, .known p, w⟩ tokens).result = .ok r →
        (link ⟨n', .known p, w⟩ tokens).result = .ok r) ∧
    ((∃ n r, 1 ≤ n ∧ n ≤ wordRadix ∧ (link ⟨n, .known p, w⟩ tokens).result = .ok r) →
      ∃ n₀ r, 1 ≤ n₀ ∧ n₀ ≤ wordRadix ∧ ∀ n, 1 ≤ n → n ≤ wordRadix →
        (n₀ ≤ n → (link ⟨n, .known p, w⟩ tokens).result = .ok r) ∧
        (n < n₀ → ∃ f, (link ⟨n, .known p, w⟩ tokens).result = .error f)) := by
  refine ⟨fun n n' r hn h hn' hr => link_mono hn h hn' hr, ?_⟩
  rintro ⟨n, r, hn, hn', hr⟩
  obtain ⟨n₀, ⟨h₀, h₀', r₀, hr₀⟩, hleast⟩ := Int.exists_least_of_bdd
    (P := fun n => 1 ≤ n ∧ n ≤ wordRadix ∧ ∃ r, (link ⟨n, .known p, w⟩ tokens).result = .ok r)
    ⟨1, fun _ h => h.1⟩ ⟨n, hn, hn', r, hr⟩
  refine ⟨n₀, r₀, h₀, h₀', fun n hn hn' => ⟨fun hle => link_mono h₀ hle hn' hr₀, fun hlt => ?_⟩⟩
  cases hresult : (link ⟨n, .known p, w⟩ tokens).result with
  | error f => exact ⟨f, rfl⟩
  | ok r => exact absurd (hleast n ⟨hn, hn', r, hresult⟩) (Int.not_le.2 hlt)

/-- One module of one word that defines a symbol far behind its end. -/
def farSymbol : List Token := Token.inLine ["1", "a", "9", "0", "1", "R", "1003"]

/-- The address of the symbol decides: from ten words on the program links. -/
theorem link_machineSize_farSymbol :
    ∃ r, ∀ n, 1 ≤ n → n ≤ wordRadix →
      (10 ≤ n → (link ⟨n, .known .error, true⟩ farSymbol).result = .ok r) ∧
        (n < 10 → ∃ f, (link ⟨n, .known .error, true⟩ farSymbol).result = .error f) := by
  have hten : (link ⟨10, .known .error, true⟩ farSymbol).result.map (fun r => r.memory.words) =
      .ok [1003] := by rfl
  have hnine : (link ⟨9, .known .error, true⟩ farSymbol).result.toOption = none := by rfl
  obtain ⟨r, hr, -⟩ := map_eq_ok.1 hten
  obtain ⟨-, hleast⟩ := link_machineSize .error true farSymbol
  obtain ⟨n₀, r₀, h₀, h₀', hall⟩ := hleast ⟨10, r, by decide, by decide, hr⟩
  have h₁ : n₀ ≤ 10 := by
    by_contra hlt
    obtain ⟨f, hf⟩ := (hall 10 (by decide) (by decide)).2 (Int.not_le.1 hlt)
    cases hr.symm.trans hf
  have h₂ : 9 < n₀ := by
    by_contra hle
    rw [(hall 9 (by decide) (by decide)).1 (Int.not_lt.1 hle)] at hnine
    cases hnine
  obtain rfl : n₀ = 10 := Int.le_antisymm h₁ h₂
  exact ⟨r₀, hall⟩

end Linkage
