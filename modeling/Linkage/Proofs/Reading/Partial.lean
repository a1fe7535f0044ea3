import Linkage.Proofs.Reading.Acceptance
import Mathlib.Data.List.Induction

/-!
# Reading — the beginnings of written programs

A reader that has not failed has read the beginning of a program: some modules with all their
sections, and behind them a part of the next one.  A `PartialProgram` is such a beginning as a
derivation.  Like a `ProgramText` it carries the proofs that its tokens write what they stand for,
and it says for the token behind it which module that token belongs to and what it means there
(`PartialModule.role`).

`PartialProgram.reading` is what a reader holds after the tokens.  Only the next count of
definitions ends a module, so the last of the modules with all their sections is still the current
one when nothing of the next has been read.

**A reader reaches exactly the readings of partial programs** (`run_eq_ok_iff`): every partial
program is read (`PartialProgram.run_tokens`), and one more token that is accepted makes a longer
one (`PartialProgram.exists_of_step`).
-/

namespace Linkage

/-! ### Parts of a derivation -/

/-- The type of an instruction as it is written. -/
structure TypeText where
  token : Token
  kind : Classification
  begins : kind.Begins token.chars

/-- A section of which some items have been written and the others are due. -/
structure PartialSection (α : Type) where
  count : NumberText
  items : List α
  due : Nat
  length_items : items.length + due = count.value

/-- The beginning of a module. -/
inductive PartialModule (settings : Settings) where
  /-- Nothing of the module has been written. -/
  | unopened
  /-- Definitions are due, or the count of uses. -/
  | definitions (d : PartialSection DefinitionText)
  /-- The offset of a definition is due. -/
  | symbol (d : PartialSection DefinitionText) (h : d.due ≠ 0) (symbol : Token)
  /-- Uses are due, or the count of instructions. -/
  | uses (d : SectionText DefinitionText) (u : PartialSection Token)
  /-- Instructions are due. -/
  | instructions (d : SectionText DefinitionText) (u : SectionText Token)
      (x : PartialSection (InstructionText settings)) (h : x.due ≠ 0)
  /-- The word of an instruction is due. -/
  | type (d : SectionText DefinitionText) (u : SectionText Token)
      (x : PartialSection (InstructionText settings)) (h : x.due ≠ 0) (type : TypeText)

/-- The beginning of a program: modules with all their sections, and a part of the next one. -/
structure PartialProgram (settings : Settings) where
  complete : List (ModuleText settings)
  last : PartialModule settings

namespace PartialSection

variable {α : Type}

def tokens (yield : α → List Token) (c : PartialSection α) : List Token :=
  c.count.token :: c.items.flatMap yield

/-- The section of which only the count has been written. -/
def counted (n : NumberText) : PartialSection α := ⟨n, [], n.value, Nat.zero_add _⟩

/-- The section with one more item. -/
def add (c : PartialSection α) (h : c.due ≠ 0) (a : α) : PartialSection α where
  count := c.count
  items := c.items ++ [a]
  due := c.due - 1
  length_items := by
    have hlen := c.length_items
    rw [List.length_append, List.length_singleton]
    omega

/-- The section, when no item is due. -/
def closed (c : PartialSection α) (h : c.due = 0) : SectionText α :=
  ⟨c.count, c.items, by rw [← c.length_items, h, Nat.add_zero]⟩

theorem tokens_add (yield : α → List Token) (c : PartialSection α) (h : c.due ≠ 0) (a : α) :
    (c.add h a).tokens yield = c.tokens yield ++ yield a := by
  simp [tokens, add, List.flatMap_append]

theorem tokens_counted (yield : α → List Token) (n : NumberText) :
    (counted n : PartialSection α).tokens yield = [n.token] := rfl

theorem tokens_closed (yield : α → List Token) (c : PartialSection α) (h : c.due = 0) :
    (c.closed h).tokens yield = c.tokens yield := rfl

end PartialSection

/-- A section with all its items. -/
def SectionText.all {α : Type} (c : SectionText α) : PartialSection α :=
  ⟨c.count, c.items, 0, c.length_items⟩

variable {settings : Settings}

/-- The module that a written one means, not yet placed. -/
def ModuleText.module (m : ModuleText settings) : Module :=
  .ofTexts settings m.definitions.items m.uses.items m.instructions.items

/-- The store of some written modules. -/
def ModuleText.store (ms : List (ModuleText settings)) : Store :=
  Store.empty.appendAll (ms.map ModuleText.module)

theorem ModuleText.count_store (ms : List (ModuleText settings)) :
    (ModuleText.store ms).count = ms.length := by
  rw [store, Store.count_appendAll, List.length_map]
  exact Nat.zero_add _

section

variable (ds : List DefinitionText) (us : List Token) (xs : List (InstructionText settings))

theorem Module.addDefinition_ofTexts (d : DefinitionText) :
    (Module.ofTexts settings ds us xs).addDefinition d.definition =
      .ofTexts settings (ds ++ [d]) us xs := by
  simp [ofTexts, addDefinition]

theorem Module.addUse_ofTexts (t : Token) :
    (Module.ofTexts settings ds us xs).addUse t.use = .ofTexts settings ds (us ++ [t]) xs := by
  simp [ofTexts, addUse]

theorem Module.addInstruction_ofTexts (x : InstructionText settings) :
    (Module.ofTexts settings ds us xs).addInstruction x.instruction =
      .ofTexts settings ds us (xs ++ [x]) := by
  simp [ofTexts, addInstruction]

end

namespace PartialModule

def tokens : PartialModule settings → List Token
  | .unopened             => []
  | .definitions d        => d.tokens DefinitionText.tokens
  | .symbol d _ t         => d.tokens DefinitionText.tokens ++ [t]
  | .uses d u             => d.tokens DefinitionText.tokens ++ u.tokens Token.tokens
  | .instructions d u x _ =>
    d.tokens DefinitionText.tokens ++
      (u.tokens Token.tokens ++ x.tokens InstructionText.tokens)
  | .type d u x _ t       =>
    d.tokens DefinitionText.tokens ++
      (u.tokens Token.tokens ++ (x.tokens InstructionText.tokens ++ [t.token]))

/-- The role of the token behind the beginning of a module. -/
def role : PartialModule settings → Role
  | .unopened       => .count
  | .definitions d  => if d.due = 0 then .count else .definitionSymbol
  | .symbol ..      => .definitionLocation
  | .uses _ u       => if u.due = 0 then .count else .use
  | .instructions .. => .instructionType
  | .type ..        => .instructionWord

/-- The module as far as it has been written, not yet placed. -/
def module : PartialModule settings → Module
  | .unopened             => {}
  | .definitions d        => .ofTexts settings d.items [] []
  | .symbol d _ _         => .ofTexts settings d.items [] []
  | .uses d u             => .ofTexts settings d.items u.items []
  | .instructions d u x _ => .ofTexts settings d.items u.items x.items
  | .type d u x _ _       => .ofTexts settings d.items u.items x.items

/-- The state of a reader behind the beginning of a module. -/
def state : PartialModule settings → Reading.State
  | .unopened             => .beginning .definitions
  | .definitions d        => .due .definitions d.due
  | .symbol d _ t         => .half .definitions (d.due - 1) t
  | .uses _ u             => .due .uses u.due
  | .instructions _ _ x _ => .due .instructions x.due
  | .type _ _ x _ t       => .half .instructions (x.due - 1) t.token

/-- Only a count of definitions stands before a module of which nothing has been written. -/
theorem ne_unopened {l : PartialModule settings} (h : l.role ≠ .count) : l ≠ .unopened := by
  rintro rfl
  exact h rfl

end PartialModule

namespace PartialProgram

def tokens (p : PartialProgram settings) : List Token :=
  p.complete.flatMap ModuleText.tokens ++ p.last.tokens

/-- The index of the module that the token behind belongs to. -/
def moduleIndex (p : PartialProgram settings) : Nat := p.complete.length

/-- The modules that a reader has placed. -/
def placed (p : PartialProgram settings) : List (ModuleText settings) :=
  match p.last with
  | .unopened => p.complete.dropLast
  | _         => p.complete

/-- The module that a reader is filling. -/
def current (p : PartialProgram settings) : Option Module :=
  match p.last with
  | .unopened => p.complete.getLast?.map ModuleText.module
  | last      => some last.module

/-- What a reader holds after the tokens. -/
def reading (p : PartialProgram settings) : Reading :=
  ⟨p.last.state, p.current, ModuleText.store p.placed⟩

/-- A program of which the instructions of the last module are being written; with none of them due
the module is complete. -/
def inInstructions (ms : List (ModuleText settings)) (d : SectionText DefinitionText)
    (u : SectionText Token) (x : PartialSection (InstructionText settings)) :
    PartialProgram settings :=
  if h : x.due = 0 then ⟨ms ++ [⟨d, u, x.closed h⟩], .unopened⟩ else ⟨ms, .instructions d u x h⟩

theorem tokens_inInstructions (ms : List (ModuleText settings)) (d : SectionText DefinitionText)
    (u : SectionText Token) (x : PartialSection (InstructionText settings)) :
    (inInstructions ms d u x).tokens = ms.flatMap ModuleText.tokens ++
      (d.tokens DefinitionText.tokens ++
        (u.tokens Token.tokens ++ x.tokens InstructionText.tokens)) := by
  unfold inInstructions
  split
  · simp [tokens, ModuleText.tokens, PartialModule.tokens, PartialSection.tokens_closed]
  · rfl

theorem reading_inInstructions (ms : List (ModuleText settings)) (d : SectionText DefinitionText)
    (u : SectionText Token) (x : PartialSection (InstructionText settings)) :
    (inInstructions ms d u x).reading =
      ⟨.due .instructions x.due, some (.ofTexts settings d.items u.items x.items),
        ModuleText.store ms⟩ := by
  unfold inInstructions
  split
  · next h => simp [reading, placed, current, PartialModule.state, h, Reading.State.due_zero,
      Section.next, ModuleText.module, PartialSection.closed]
  · rfl

/-- Where a module is awaited, all modules before it are placed when the reading is finished. -/
theorem finished_unopened (ms : List (ModuleText settings)) :
    (reading ⟨ms, .unopened⟩).finished = ModuleText.store ms := by
  rcases List.eq_nil_or_concat ms with rfl | ⟨ms, m, rfl⟩
  · rfl
  · simp [reading, placed, current, Reading.finished, ModuleText.store, Store.appendAll]

end PartialProgram

/-! ### Partial programs are read -/

namespace Reading

open State

section

variable {α : Type} {part : Section} {yield : α → List Token} {add : Module → α → Module}
  {r : Reading}

/-- Where items of the section are due, the tokens of one are read and add it to the module. -/
def Reads (settings : Settings) (part : Section) (yield : α → List Token)
    (add : Module → α → Module) : Prop :=
  ∀ (k : Nat) (m : Module) (st : Store) (a : α),
    run settings ⟨due part (k + 1), some m, st⟩ (yield a) = .ok ⟨due part k, some (add m a), st⟩

theorem Reads.items (h : Reads settings part yield add) (items : List α) (k : Nat) (m : Module)
    (st : Store) :
    run settings ⟨due part (items.length + k), some m, st⟩ (items.flatMap yield) =
      .ok ⟨due part k, some (items.foldl add m), st⟩ := by
  induction items generalizing m with
  | nil => rw [List.length_nil, Nat.zero_add]; rfl
  | cons a items ih =>
    rw [List.flatMap_cons, List.length_cons, Nat.add_right_comm, run_append (h _ m st a)]
    exact ih (add m a)

/-- Where a count is due, the count and the items behind it are read; the count opens the module `m`
over the store `st`. -/
theorem Reads.section (h : Reads settings part yield add) {i : Nat} {m : Module} {st : Store}
    (hstep : ∀ t, r.step settings t =
      (number .invalidCount t i).map fun n => ⟨due part n, some m, st⟩) (c : PartialSection α) :
    run settings r (c.tokens yield) = .ok ⟨due part c.due, some (c.items.foldl add m), st⟩ := by
  have hcount : run settings r [c.count.token] =
      .ok ⟨due part (c.items.length + c.due), some m, st⟩ := by
    show r.step settings c.count.token >>= pure = _
    rw [hstep, number_eq_ok.2 c.count.writes, c.length_items]
    rfl
  rw [PartialSection.tokens, ← List.singleton_append, run_append hcount]
  exact h.items c.items c.due m st

end

theorem reads_definition : Reads settings .definitions DefinitionText.tokens
    (fun m d => m.addDefinition d.definition) := by
  intro k m st d
  show step settings _ d.symbol >>= (fun r => step settings r d.offset.token >>= pure) = _
  rw [step_symbol]
  show step settings _ d.offset.token >>= pure = _
  rw [step_offset, number_eq_ok.2 d.offset.writes]
  rfl

theorem reads_use : Reads settings .uses Token.tokens (fun m t => m.addUse t.use) := by
  intro k m st t
  show step settings _ t >>= pure = _
  rw [step_use]
  rfl

theorem reads_instruction : Reads settings .instructions (@InstructionText.tokens settings)
    (fun m x => m.addInstruction x.instruction) := by
  intro k m st x
  show step settings _ x.type >>= (fun r => step settings r x.word >>= pure) = _
  rw [step_type, classification_eq_ok.2 x.begins]
  show step settings _ x.word >>= pure = _
  rw [step_word x.begins, opcodeAndAddress_eq_ok.2 x.writes]
  rfl

end Reading

namespace PartialProgram

open Reading Reading.State

variable {ms : List (ModuleText settings)} {d : SectionText DefinitionText} {u : SectionText Token}
  {t : Token}

theorem run_definitions (d : PartialSection DefinitionText) :
    run settings (reading ⟨ms, .unopened⟩) (d.tokens DefinitionText.tokens) =
      .ok (reading ⟨ms, .definitions d⟩) := by
  have hstep (t : Token) : step settings (reading ⟨ms, .unopened⟩) t = _ := step_count rfl
  refine (reads_definition.section hstep d).trans ?_
  rw [foldl_addDefinition, finished_unopened]
  rfl

theorem run_uses (u : PartialSection Token) :
    run settings (reading ⟨ms, .unopened⟩)
        (d.tokens DefinitionText.tokens ++ u.tokens Token.tokens) =
      .ok (reading ⟨ms, .uses d u⟩) := by
  have hstep (t : Token) : step settings (reading ⟨ms, .definitions d.all⟩) t = _ := step_count rfl
  refine (run_append (run_definitions d.all)).trans ((reads_use.section hstep u).trans ?_)
  rw [foldl_addUse]
  rfl

theorem run_instructions (x : PartialSection (InstructionText settings)) :
    run settings (reading ⟨ms, .unopened⟩) (d.tokens DefinitionText.tokens ++
        (u.tokens Token.tokens ++ x.tokens InstructionText.tokens)) =
      .ok (inInstructions ms d u x).reading := by
  have hstep (t : Token) : step settings (reading ⟨ms, .uses d u.all⟩) t = _ := step_count rfl
  rw [← List.append_assoc]
  refine (run_append (run_uses u.all)).trans ((reads_instruction.section hstep x).trans ?_)
  rw [foldl_addInstruction, reading_inInstructions]
  rfl

/-- Modules with all their sections are read. -/
theorem run_complete (ms : List (ModuleText settings)) :
    run settings {} (ms.flatMap ModuleText.tokens) = .ok (reading ⟨ms, .unopened⟩) := by
  induction ms using List.reverseRecOn with
  | nil => rfl
  | append_singleton ms m ih =>
    rw [List.flatMap_append, run_append ih, List.flatMap_singleton]
    exact run_instructions m.instructions.all

/-! ### One more token

Behind each beginning of a module one equation says what the next token is read as, and in which
module a failure is reported.  A section without items that are due awaits the count of the next
one. -/

/-- The module before is still the current one, and a failure is reported there. -/
theorem step_unopened :
    step settings (reading ⟨ms, .unopened⟩) t =
      (number .invalidCount t (ms.length - 1)).map fun n =>
        ⟨due .definitions n, some {}, ModuleText.store ms⟩ := by
  have hcount : (reading ⟨ms, .unopened⟩).store.count = ms.length - 1 :=
    (ModuleText.count_store _).trans List.length_dropLast
  rw [step_count rfl, hcount, finished_unopened]
  rfl

theorem step_definitions_zero {d : PartialSection DefinitionText} (hd : d.due = 0) :
    step settings (reading ⟨ms, .definitions d⟩) t =
      (number .invalidCount t ms.length).map fun n =>
        ⟨due .uses n, some (.ofTexts settings d.items [] []), ModuleText.store ms⟩ := by
  have hr : reading ⟨ms, .definitions d⟩ =
      ⟨beginning .uses, some (.ofTexts settings d.items [] []), ModuleText.store ms⟩ := by
    rw [reading, PartialModule.state, hd]
    rfl
  rw [hr, step_count rfl, ModuleText.count_store]
  rfl

theorem step_definitions_pos {d : PartialSection DefinitionText} (hd : d.due ≠ 0) :
    step settings (reading ⟨ms, .definitions d⟩) t = .ok (reading ⟨ms, .symbol d hd t⟩) := by
  obtain ⟨k, hk⟩ := Nat.exists_eq_succ_of_ne_zero hd
  simp only [reading, PartialModule.state, hk]
  exact step_symbol

theorem step_half_definition {d : PartialSection DefinitionText} {hd : d.due ≠ 0} {s : Token} :
    step settings (reading ⟨ms, .symbol d hd s⟩) t =
      (number .invalidLocation t ms.length).map fun n =>
        ⟨due .definitions (d.due - 1), some ((Module.ofTexts settings d.items [] []).addDefinition
          (.fresh s.text (some n) (some s.location))), ModuleText.store ms⟩ := by
  rw [← ModuleText.count_store ms]
  exact step_offset

theorem step_uses_zero {u : PartialSection Token} (hu : u.due = 0) :
    step settings (reading ⟨ms, .uses d u⟩) t =
      (number .invalidCount t ms.length).map fun n =>
        ⟨due .instructions n, some (.ofTexts settings d.items u.items []),
          ModuleText.store ms⟩ := by
  have hr : reading ⟨ms, .uses d u⟩ = ⟨beginning .instructions,
      some (.ofTexts settings d.items u.items []), ModuleText.store ms⟩ := by
    rw [reading, PartialModule.state, hu]
    rfl
  rw [hr, step_count rfl, ModuleText.count_store]
  rfl

theorem step_uses_pos {u : PartialSection Token} (hu : u.due ≠ 0) :
    step settings (reading ⟨ms, .uses d u⟩) t = .ok (reading ⟨ms, .uses d (u.add hu t)⟩) := by
  have hstep : step settings (reading ⟨ms, .uses d u⟩) t = .ok ⟨due .uses (u.due - 1),
      some ((Module.ofTexts settings d.items u.items []).addUse t.use), ModuleText.store ms⟩ := by
    obtain ⟨k, hk⟩ := Nat.exists_eq_succ_of_ne_zero hu
    simp only [reading, PartialModule.state, hk]
    exact step_use
  rw [hstep, Module.addUse_ofTexts]
  rfl

theorem step_instructions {x : PartialSection (InstructionText settings)} {hx : x.due ≠ 0} :
    step settings (reading ⟨ms, .instructions d u x hx⟩) t =
      (classification t ms.length).map fun _ =>
        ⟨half .instructions (x.due - 1) t, some (.ofTexts settings d.items u.items x.items),
          ModuleText.store ms⟩ := by
  obtain ⟨k, hk⟩ := Nat.exists_eq_succ_of_ne_zero hx
  rw [← ModuleText.count_store ms]
  simp only [reading, PartialModule.state, hk]
  exact step_type

theorem step_half_instruction {x : PartialSection (InstructionText settings)} {hx : x.due ≠ 0}
    {ty : TypeText} :
    step settings (reading ⟨ms, .type d u x hx ty⟩) t =
      (opcodeAndAddress settings t ms.length x.items.length).map fun w =>
        ⟨due .instructions (x.due - 1),
          some ((Module.ofTexts settings d.items u.items x.items).addInstruction
            (.fresh ty.kind w.1 w.2 (some t.location))), ModuleText.store ms⟩ := by
  have hlen : (Module.ofTexts settings d.items u.items x.items).length = x.items.length :=
    List.length_map _
  rw [← ModuleText.count_store ms, ← hlen]
  exact step_word ty.begins

/-- **Every partial program is read.** -/
theorem run_tokens (p : PartialProgram settings) : run settings {} p.tokens = .ok p.reading := by
  have hone (r : Reading) (t : Token) : run settings r [t] = r.step settings t :=
    bind_pure _
  obtain ⟨ms, last⟩ := p
  refine (run_append (run_complete ms)).trans ?_
  cases last with
  | unopened => rfl
  | definitions d => exact run_definitions d
  | symbol d h t =>
    rw [PartialModule.tokens, run_append (run_definitions d), hone]
    exact step_definitions_pos h
  | uses d u => exact run_uses u
  | instructions d u x h =>
    refine (run_instructions x).trans ?_
    rw [inInstructions, dif_neg h]
  | type d u x h t =>
    have hx : run settings (reading ⟨ms, .unopened⟩) _ = _ := run_instructions (d := d) (u := u) x
    rw [inInstructions, dif_neg h] at hx
    rw [PartialModule.tokens, ← List.append_assoc (u.tokens _), ← List.append_assoc, run_append hx,
      hone, step_instructions, classification_eq_ok.2 t.begins]
    rfl

/-- **One more token that is accepted makes a longer partial program.** -/
theorem exists_of_step {p : PartialProgram settings} {r : Reading}
    (h : p.reading.step settings t = .ok r) :
    ∃ q : PartialProgram settings, q.tokens = p.tokens ++ [t] ∧ q.reading = r := by
  obtain ⟨ms, last⟩ := p
  cases last with
  | unopened =>
    rw [step_unopened, map_eq_ok] at h
    obtain ⟨n, hn, rfl⟩ := h
    refine ⟨⟨ms, .definitions (.counted ⟨t, n, number_eq_ok.1 hn⟩)⟩, ?_, rfl⟩
    simp [tokens, PartialModule.tokens, PartialSection.tokens_counted]
  | definitions d =>
    by_cases hd : d.due = 0
    · rw [step_definitions_zero hd, map_eq_ok] at h
      obtain ⟨n, hn, rfl⟩ := h
      refine ⟨⟨ms, .uses (d.closed hd) (.counted ⟨t, n, number_eq_ok.1 hn⟩)⟩, ?_, rfl⟩
      simp [tokens, PartialModule.tokens, PartialSection.tokens_counted,
        PartialSection.tokens_closed]
    · rw [step_definitions_pos hd] at h
      cases h
      exact ⟨⟨ms, .symbol d hd t⟩, by simp [tokens, PartialModule.tokens], rfl⟩
  | symbol d hd s =>
    rw [step_half_definition, map_eq_ok] at h
    obtain ⟨n, hn, rfl⟩ := h
    let item : DefinitionText := ⟨s, t, n, number_eq_ok.1 hn⟩
    refine ⟨⟨ms, .definitions (d.add hd item)⟩, ?_, ?_⟩
    · simp [tokens, PartialModule.tokens, PartialSection.tokens_add, DefinitionText.tokens, item]
    · rw [show Definition.fresh s.text (some n) (some s.location) = item.definition from rfl,
        Module.addDefinition_ofTexts]
      rfl
  | uses d u =>
    by_cases hu : u.due = 0
    · rw [step_uses_zero hu, map_eq_ok] at h
      obtain ⟨n, hn, rfl⟩ := h
      refine ⟨inInstructions ms d (u.closed hu) (.counted ⟨t, n, number_eq_ok.1 hn⟩), ?_,
        reading_inInstructions ..⟩
      rw [tokens_inInstructions]
      simp [tokens, PartialModule.tokens, PartialSection.tokens_counted,
        PartialSection.tokens_closed]
    · rw [step_uses_pos hu] at h
      cases h
      refine ⟨⟨ms, .uses d (u.add hu t)⟩, ?_, rfl⟩
      simp [tokens, PartialModule.tokens, PartialSection.tokens_add, Token.tokens]
  | instructions d u x hx =>
    rw [step_instructions, map_eq_ok] at h
    obtain ⟨kind, hk, rfl⟩ := h
    refine ⟨⟨ms, .type d u x hx ⟨t, kind, classification_eq_ok.1 hk⟩⟩, ?_, rfl⟩
    simp [tokens, PartialModule.tokens]
  | type d u x hx ty =>
    rw [step_half_instruction, map_eq_ok] at h
    obtain ⟨⟨o, a⟩, hw, rfl⟩ := h
    let item : InstructionText settings :=
      ⟨ty.token, t, ty.kind, o, a, ty.begins, opcodeAndAddress_eq_ok.1 hw⟩
    refine ⟨inInstructions ms d u (x.add hx item), ?_, ?_⟩
    · rw [tokens_inInstructions]
      simp [tokens, PartialModule.tokens, PartialSection.tokens_add, InstructionText.tokens, item]
    · rw [reading_inInstructions,
        show Instruction.fresh ty.kind o a (some t.location) = item.instruction from rfl,
        Module.addInstruction_ofTexts]
      rfl

/-- **A reader reaches exactly the readings of partial programs.** -/
theorem run_eq_ok_iff {ts : List Token} {r : Reading} :
    run settings {} ts = .ok r ↔
      ∃ p : PartialProgram settings, p.tokens = ts ∧ p.reading = r := by
  constructor
  · intro h
    induction ts using List.reverseRecOn generalizing r with
    | nil => cases h; exact ⟨⟨[], .unopened⟩, rfl, rfl⟩
    | append_singleton ts t ih =>
      rw [run, List.foldlM_append, bind_eq_ok] at h
      obtain ⟨r', hr', h⟩ := h
      obtain ⟨p, rfl, rfl⟩ := ih hr'
      exact exists_of_step ((bind_pure _).symm.trans h)
  · rintro ⟨p, rfl, rfl⟩
    exact p.run_tokens

end PartialProgram

end Linkage
