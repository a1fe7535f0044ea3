import Linkage.Proofs.Concatenation

/-!
# Linking — programs that grow at their end

What follows a program does not move it: its modules keep their places, and its definitions their
addresses.  Where the first definition of a name holds, the names of the program also go on standing
for what they stand for in it alone (`addressOf_followedBy_of_first`), whatever the modules behind
it define.

The image of a linkable program is a matter of the names it defines, since its instructions refer to
no others (`Linkable.linked_congr`).  So it is found unchanged at the beginning of the longer image
(`Linkable.image_isPrefix`).  `link_append_isPrefix` states this for tokens.

Under `last` it does not hold: there a later definition takes the name over.
-/

namespace Linkage

namespace Store

variable {settings : Settings} {policy : PolicySetting} {s s' : Store} {name : String}

/-! ### Names of a program that grows -/

/-- Where the first entry holds, a name of a program resolves to the same entry behind which other
modules stand. -/
theorem choose_entriesNamed_followedBy (hp : policy ≠ .known .last) (h : s.AsRead settings)
    (hn : name ∈ s.definedNames) :
    policy.choose (entriesNamed name (s.followedBy s').entries) =
      policy.choose (entriesNamed name s.entries) := by
  rw [← h.map_name_entries] at hn
  obtain ⟨e, he, rfl⟩ := List.mem_map.1 hn
  have hne : entriesNamed e.name s.entries ≠ [] := fun hnil =>
    entriesNamed_eq_nil.1 hnil e he rfl
  rw [entries_followedBy, entriesNamed_append, PolicySetting.choose_append_of_ne_nil hp hne]

theorem addressOf_followedBy_of_first (hp : policy ≠ .known .last) (h : s.AsRead settings)
    (hn : name ∈ s.definedNames) :
    (s.followedBy s').addressOf policy name = s.addressOf policy name :=
  congrArg (Option.map Entry.address) (choose_entriesNamed_followedBy hp h hn)

/-! ### The image of a program that grows -/

/-- **The image of a linkable program** depends on what the names it defines stand for. -/
theorem Linkable.linked_congr (hl : s.Linkable settings) {f g : String → Option Int}
    (hfg : ∀ name ∈ s.definedNames, f name = g name) :
    s.located.linked f = s.located.linked g := by
  refine congrArg Store.mk (List.map_congr_left fun m hm => ?_)
  obtain ⟨m₀, hm₀, rfl⟩ := List.mem_map.1 hm
  refine congrArg (fun xs => { m₀.located with instructions := xs })
    (List.map_congr_left fun x hx => ?_)
  have hfinal : m₀.located.finalAddress? f x = m₀.located.finalAddress? g x :=
    hl.finalAddress?_congr hfg hm₀ hx
  rw [Module.linkedInstruction, Module.linkedInstruction, hfinal]

/-- A program that begins another one has the first of its words. -/
theorem words_isPrefix (h : s.modules <+: s'.modules) : s.words <+: s'.words := by
  obtain ⟨ms, hms⟩ := h
  rw [words, words, instructions, instructions, ← hms, List.flatMap_append, List.map_append]
  exact List.prefix_append _ _

/-- Where the first definition of a name holds, the image of a program begins that of the program
with other modules behind it. -/
theorem Linkable.image_isPrefix (hp : policy ≠ .known .last) (hl : s.Linkable settings)
    (h : s.AsRead settings) (s' : Store) :
    (s.image policy).modules <+: ((s.followedBy s').image policy).modules := by
  have himage : s.located.linked ((s.followedBy s').addressOf policy) = s.image policy :=
    hl.linked_congr fun _ hn => addressOf_followedBy_of_first hp h hn
  rw [← himage, image, linked, located, linked, located, modules_followedBy, List.map_append,
    List.map_append]
  exact List.prefix_append _ _

end Store

/-! ### Linking a program that grows -/

variable {settings : Settings} {A B : List Token} {rA r : LinkResult}

/-- **A program that grows at its end keeps its image**, unless the last definition of a name holds.
Tokens link, and they end where a count of definitions is awaited; with more tokens behind them they
link as well.  Then the modules, the words and the symbols begin with those of the first tokens
alone, and every name that these define resolves to the entry it resolves to there, also if it is
defined again. -/
theorem link_append_isPrefix (hv : settings.IsValid) (hp : settings.policy ≠ .known .last)
    (hA : (link settings A).result = .ok rA) (hb : Reading.EndsAtBoundary settings A)
    (hAB : (link settings (A ++ B)).result = .ok r) :
    rA.store.modules <+: r.store.modules ∧ rA.memory.words <+: r.memory.words ∧
      rA.symbols.entries <+: r.symbols.entries ∧
        ∀ name ∈ rA.store.definedNames,
          ∃ e, rA.symbols.lookup name = some e ∧ r.symbols.lookup name = some e := by
  obtain ⟨sA, hpA, hl, rfl⟩ := (link_eq_ok hv).1 hA
  obtain ⟨sB, -, -, rfl⟩ := (link_append_eq_ok hv hpA hb).1 hAB
  have h := Store.asRead_of_parse hpA
  have hmodules := hl.image_isPrefix hp h sB
  refine ⟨hmodules, Store.words_isPrefix hmodules, ?_, fun name hn => ?_⟩
  · rw [entries_ofStore, entries_ofStore, Store.entries_followedBy]
    exact List.prefix_append _ _
  · have hn : name ∈ sA.definedNames := Store.definedNames_image settings.policy sA ▸ hn
    have hsome : (sA.addressOf settings.policy name).isSome = true :=
      (Store.isSome_addressOf h).2 hn
    rw [Store.addressOf, Option.isSome_map] at hsome
    obtain ⟨e, he⟩ := Option.isSome_iff_exists.1 hsome
    rw [lookup_ofStore, lookup_ofStore, Store.choose_entriesNamed_followedBy hp h hn]
    exact ⟨e, he, he⟩

/-- One module that uses the symbol it defines. -/
def usesOwnSymbol : List Token := Token.inLine ["1", "a", "0", "1", "a", "1", "E", "2000"]

/-- Under `first` a second module that defines the symbol again takes it from the first one. -/
theorem link_append_isPrefix_definedAgain :
    let settings : Settings := { policy := .known .first }
    settings.IsValid ∧ settings.policy ≠ .known .last ∧
      ∃ rA r, (link settings usesOwnSymbol).result = .ok rA ∧
        Reading.EndsAtBoundary settings usesOwnSymbol ∧
          (link settings (usesOwnSymbol ++ usesOwnSymbol)).result = .ok r ∧
            rA.memory.words <+: r.memory.words ∧ r.memory.words = [2000, 2000] := by
  intro settings
  have hv : settings.IsValid := by decide
  have hp : settings.policy ≠ .known .last := by decide
  have hb : Reading.EndsAtBoundary settings usesOwnSymbol := ⟨_, rfl, rfl, rfl⟩
  have hone : (link settings usesOwnSymbol).result.map (fun r => r.memory.words) = .ok [2000] := by
    rfl
  have htwo : (link settings (usesOwnSymbol ++ usesOwnSymbol)).result.map
      (fun r => r.memory.words) = .ok [2000, 2000] := by rfl
  obtain ⟨rA, hA, -⟩ := map_eq_ok.1 hone
  obtain ⟨r, hr, hwords⟩ := map_eq_ok.1 htwo
  exact ⟨hv, hp, rA, r, hA, hb, hr, (link_append_isPrefix hv hp hA hb hr).2.1, hwords⟩

end Linkage
