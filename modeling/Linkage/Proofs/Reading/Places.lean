import Linkage.Proofs.Reading.Partial

/-!
# Reading — where the items of a program are written

A partial program that ends before a token says what the token is: its role, the module it belongs
to and what of the module has been written (`PartialProgram.Precedes`).  For an item of a program
that has been read there is such a partial program:

* `exists_name`: the name of a definition stands where the definitions before it have been written,
  and the offset stands behind the name.
* `exists_word`: the word of an instruction stands where the instructions before it have been
  written.

Both go down from the program to the module and from the module to the section; a section is cut
before the item (`PartialSection.exists_before`).
-/

namespace Linkage

/-! ### Sections -/

/-- An element of a list and what is on either side of it. -/
theorem eq_take_append_cons_drop {α : Type} {xs : List α} {i : Nat} {a : α} (h : xs[i]? = some a) :
    xs = xs.take i ++ a :: xs.drop (i + 1) := by
  obtain ⟨hi, rfl⟩ := List.getElem?_eq_some_iff.1 h
  rw [← List.drop_eq_getElem_cons, List.take_append_drop]

/-- A section is cut before an item. -/
theorem PartialSection.exists_before {α : Type} (c : PartialSection α) (yield : α → List Token)
    {k : Nat} {a : α} (h : c.items[k]? = some a) :
    ∃ b : PartialSection α, b.due ≠ 0 ∧ b.items = c.items.take k ∧
      ∃ rest, c.tokens yield = b.tokens yield ++ (yield a ++ rest) := by
  have hk : k < c.items.length := (List.getElem?_eq_some_iff.1 h).1
  have hlen := c.length_items
  refine ⟨⟨c.count, c.items.take k, c.count.value - k, ?_⟩, ?_, rfl,
    (c.items.drop (k + 1)).flatMap yield, ?_⟩
  · rw [List.length_take, Nat.min_eq_left (Nat.le_of_lt hk)]
    omega
  · show c.count.value - k ≠ 0
    omega
  · have hitems := congrArg (List.flatMap yield) (eq_take_append_cons_drop h)
    rw [List.flatMap_append, List.flatMap_cons] at hitems
    rw [tokens, tokens, hitems, List.cons_append]

namespace PartialProgram

variable {settings : Settings} {p : PartialProgram settings} {ts : List Token} {i j : Nat}
  {m : Module}

/-! ### Modules -/

/-- The modules that have been begun, as far as they have been written and not yet placed. -/
def modules (p : PartialProgram settings) : List Module :=
  p.complete.map ModuleText.module ++
    match p.last with
    | .unopened => []
    | last      => [last.module]

theorem modules_of_ne (h : p.last ≠ .unopened) :
    p.modules = p.complete.map ModuleText.module ++ [p.last.module] := by
  unfold modules
  split
  · next hp => exact absurd hp h
  · rfl

/-- A finished reading has placed the modules. -/
theorem finished_reading (p : PartialProgram settings) :
    p.reading.finished = .ofModules p.modules := by
  rw [← Store.appendAll_empty]
  by_cases h : p.last = .unopened
  · obtain ⟨ms, last⟩ := p
    obtain rfl : last = .unopened := h
    rw [finished_unopened, modules, List.append_nil]
    rfl
  · rw [modules_of_ne h, Store.appendAll, List.foldl_append]
    obtain ⟨ms, last⟩ := p
    cases last with
    | unopened => exact absurd rfl h
    | _ => rfl

theorem finish_eq_ok {r : Reading} {last : Option Token} {s : Store} :
    r.finish last = .ok s ↔ r.state.remaining = 0 ∧ r.finished = s := by
  unfold Reading.finish
  split
  · next h => simp [h]
  · next h => split <;> simp [h]

/-- A program is accepted when no more of its tokens are due. -/
theorem parse_eq_ok_iff {s : Store} :
    Store.parse settings ts = .ok s ↔ ∃ p : PartialProgram settings, p.tokens = ts ∧
      p.last.state.remaining = 0 ∧ Store.ofModules p.modules = s := by
  simp only [Store.parse, bind_eq_ok, run_eq_ok_iff, finish_eq_ok]
  constructor
  · rintro ⟨_, ⟨p, hp, rfl⟩, hrem, hs⟩
    exact ⟨p, hp, hrem, p.finished_reading.symm.trans hs⟩
  · rintro ⟨p, hp, hrem, hs⟩
    exact ⟨p.reading, ⟨p, hp, rfl⟩, hrem, p.finished_reading.trans hs⟩

/-- A module that has been begun has all its sections, or it is the last one. -/
theorem getElem?_modules (h : p.modules[i]? = some m) :
    (∃ t, p.complete[i]? = some t ∧ t.module = m) ∨
      p.last ≠ .unopened ∧ p.complete.length = i ∧ p.last.module = m := by
  have hlen : (p.complete.map ModuleText.module).length = p.complete.length := List.length_map _
  by_cases hi : i < p.complete.length
  · rw [modules, List.getElem?_append_left (hlen ▸ hi), List.getElem?_map,
      Option.map_eq_some_iff] at h
    exact .inl h
  · have hle := Nat.not_lt.1 hi
    by_cases hlast : p.last = .unopened
    · rw [modules, hlast, List.append_nil, List.getElem?_eq_none (hlen ▸ hle)] at h
      cases h
    · rw [modules_of_ne hlast, List.getElem?_append_right (hlen ▸ hle), hlen,
        List.getElem?_singleton] at h
      split at h
      · next hz => exact .inr ⟨hlast, by omega, Option.some.inj h⟩
      · cases h

/-- The modules before one that has been begun have all their sections. -/
theorem take_modules (h : i ≤ p.complete.length) :
    p.modules.take i = (p.complete.take i).map ModuleText.module := by
  rw [modules, List.take_append_of_le_length (by rwa [List.length_map]), List.map_take]

/-- The tokens up to a module with all its sections. -/
theorem tokens_eq_of_complete {t : ModuleText settings} (h : p.complete[i]? = some t) :
    ∃ rest, p.tokens = (p.complete.take i).flatMap ModuleText.tokens ++ (t.tokens ++ rest) := by
  have hsplit := congrArg (List.flatMap ModuleText.tokens) (eq_take_append_cons_drop h)
  rw [List.flatMap_append, List.flatMap_cons] at hsplit
  refine ⟨(p.complete.drop (i + 1)).flatMap ModuleText.tokens ++ p.last.tokens, ?_⟩
  rw [tokens, hsplit]
  simp only [List.append_assoc]

/-! ### Definitions and instructions -/

/-- The definitions of a module stand behind the modules before it. -/
theorem exists_definitions (h : p.modules[i]? = some m) :
    ∃ d : PartialSection DefinitionText, d.items.map DefinitionText.definition = m.definitions ∧
      i ≤ p.complete.length ∧
        ∃ rest, p.tokens = tokens ⟨p.complete.take i, .definitions d⟩ ++ rest := by
  rcases getElem?_modules h with ⟨t, ht, rfl⟩ | ⟨hlast, rfl, rfl⟩
  · obtain ⟨rest, hrest⟩ := tokens_eq_of_complete ht
    refine ⟨t.definitions.all, rfl, Nat.le_of_lt (List.getElem?_eq_some_iff.1 ht).1,
      t.uses.tokens Token.tokens ++ (t.instructions.tokens InstructionText.tokens ++ rest), ?_⟩
    rw [hrest, tokens, ModuleText.tokens, List.append_assoc, List.append_assoc, List.append_assoc]
    rfl
  · obtain ⟨ms, last⟩ := p
    rw [List.take_length]
    cases last with
    | unopened => exact absurd rfl hlast
    | definitions d => exact ⟨d, rfl, Nat.le_refl _, [], (List.append_nil _).symm⟩
    | symbol d _ t => exact ⟨d, rfl, Nat.le_refl _, [t], (List.append_assoc ..).symm⟩
    | uses d u => exact ⟨d.all, rfl, Nat.le_refl _, _, (List.append_assoc ..).symm⟩
    | instructions d u x _ => exact ⟨d.all, rfl, Nat.le_refl _, _, (List.append_assoc ..).symm⟩
    | type d u x _ t => exact ⟨d.all, rfl, Nat.le_refl _, _, (List.append_assoc ..).symm⟩

/-- The instructions of a module stand behind the modules before it, its definitions and its uses;
a module with an instruction has all of those. -/
theorem exists_instructions (h : p.modules[i]? = some m) (hm : m.instructions ≠ []) :
    ∃ (d : SectionText DefinitionText) (u : SectionText Token)
        (x : PartialSection (InstructionText settings)),
      x.items.map InstructionText.instruction = m.instructions ∧ i ≤ p.complete.length ∧
        ∃ rest, p.tokens = (p.complete.take i).flatMap ModuleText.tokens ++
          (d.tokens DefinitionText.tokens ++
            (u.tokens Token.tokens ++ (x.tokens InstructionText.tokens ++ rest))) := by
  rcases getElem?_modules h with ⟨t, ht, rfl⟩ | ⟨hlast, rfl, rfl⟩
  · obtain ⟨rest, hrest⟩ := tokens_eq_of_complete ht
    refine ⟨t.definitions, t.uses, t.instructions.all, rfl,
      Nat.le_of_lt (List.getElem?_eq_some_iff.1 ht).1, rest, ?_⟩
    rw [hrest, ModuleText.tokens, List.append_assoc, List.append_assoc]
    rfl
  · obtain ⟨ms, last⟩ := p
    rw [List.take_length]
    cases last with
    | unopened => exact absurd rfl hlast
    | definitions d => exact absurd rfl hm
    | symbol d _ t => exact absurd rfl hm
    | uses d u => exact absurd rfl hm
    | instructions d u x _ =>
      exact ⟨d, u, x, rfl, Nat.le_refl _, [], by simp [tokens, PartialModule.tokens]⟩
    | type d u x _ t =>
      exact ⟨d, u, x, rfl, Nat.le_refl _, [t.token], by simp [tokens, PartialModule.tokens]⟩

/-- The token `t` of the tokens `ts` stands behind the partial program. -/
def Precedes (p : PartialProgram settings) (t : Token) (ts : List Token) : Prop :=
  ∃ rest, ts = p.tokens ++ t :: rest

/-- **The name of a definition** stands where the definitions before it have been written, and the
offset stands behind the name. -/
theorem exists_name {k : Nat} {d : Definition} (h : p.modules[i]? = some m)
    (hd : m.definitions[k]? = some d) :
    ∃ (q : PartialProgram settings) (x : DefinitionText) (rest : List Token),
      p.tokens = q.tokens ++ x.symbol :: x.offset.token :: rest ∧ x.definition = d ∧
        q.last.role = .definitionSymbol ∧ q.moduleIndex = i ∧
          q.complete.map ModuleText.module = p.modules.take i ∧
            q.last.module.definitions = m.definitions.take k := by
  obtain ⟨c, hc, hi, rest, hrest⟩ := exists_definitions h
  rw [← hc, List.getElem?_map, Option.map_eq_some_iff] at hd
  obtain ⟨x, hx, rfl⟩ := hd
  obtain ⟨b, hdue, hb, rest', hrest'⟩ := c.exists_before DefinitionText.tokens hx
  refine ⟨⟨p.complete.take i, .definitions b⟩, x, rest' ++ rest, ?_, rfl, if_neg hdue,
    List.length_take_of_le hi, (take_modules hi).symm, ?_⟩
  · rw [hrest]
    simp [tokens, PartialModule.tokens, hrest', DefinitionText.tokens]
  · rw [← hc, ← List.map_take, ← hb]
    rfl

/-- **The word of an instruction** stands where the instructions before it have been written, behind
its type. -/
theorem exists_word {x : Instruction} (h : p.modules[i]? = some m)
    (hx : m.instructions[j]? = some x) :
    ∃ (q : PartialProgram settings) (y : InstructionText settings) (rest : List Token),
      p.tokens = q.tokens ++ y.word :: rest ∧ y.instruction = x ∧
        q.last.role = .instructionWord ∧ q.moduleIndex = i ∧ q.last.module.length = j := by
  have hm : m.instructions ≠ [] := List.ne_nil_of_mem (List.mem_of_getElem? hx)
  obtain ⟨d, u, c, hc, hi, rest, hrest⟩ := exists_instructions h hm
  rw [← hc, List.getElem?_map, Option.map_eq_some_iff] at hx
  obtain ⟨y, hy, rfl⟩ := hx
  obtain ⟨b, hdue, hb, rest', hrest'⟩ := c.exists_before InstructionText.tokens hy
  have hlen : b.items.length = j :=
    hb ▸ List.length_take_of_le (Nat.le_of_lt (List.getElem?_eq_some_iff.1 hy).1)
  refine ⟨⟨p.complete.take i, .type d u b hdue ⟨y.type, y.kind, y.begins⟩⟩, y, rest' ++ rest, ?_,
    rfl, rfl, List.length_take_of_le hi, ?_⟩
  · rw [hrest]
    simp [tokens, PartialModule.tokens, hrest', InstructionText.tokens]
  · rw [← hlen]
    exact List.length_map _

end PartialProgram

end Linkage
