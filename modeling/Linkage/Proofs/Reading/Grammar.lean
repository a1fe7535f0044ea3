import Linkage.Proofs.Layout
import Linkage.Proofs.Reading.Token

/-!
# Reading — written programs

A program as it is written is a derivation of the grammar: a sequence of modules, each of three
counted sections.  Only the last module may stop early, and only where a count is due, that is
after its definitions or after its uses; the sections it lacks are empty.

A derivation carries the proofs that its tokens write what they stand for: a count is a number and
is followed by as many items, an offset is a number, an instruction is a classification and a word.
So there is no ill-formed `ProgramText`.  `ProgramText.tokens` is what it looks like,
`ProgramText.modules` what it means, and `ProgramText.store` the store that it means, in which every
field of every part is said.  That store is `Store.AsRead`: its numbers are in bounds and nothing in
it has been relocated.

**A program is written in one way only** (`ProgramText.tokens_injective`).  Every part delimits
itself (`SelfDelimiting`): from its tokens and any tokens behind them the part can be told, an item
by its number of tokens, a section by its count.
-/

namespace Linkage

/-! ### Derivations -/

/-- A number as it is written. -/
structure NumberText where
  token : Token
  value : Nat
  writes : Numeral.Writes token.chars value

/-- A definition as it is written. -/
structure DefinitionText where
  symbol : Token
  offset : NumberText

/-- An instruction as it is written: a type and a word. -/
structure InstructionText (settings : Settings) where
  type : Token
  word : Token
  kind : Classification
  opcode : Nat
  address : Nat
  begins : kind.Begins type.chars
  writes : WritesWord settings word.chars opcode address

/-- A section as it is written: a count and as many items. -/
structure SectionText (α : Type) where
  count : NumberText
  items : List α
  length_items : items.length = count.value

/-- A module with all its sections. -/
structure ModuleText (settings : Settings) where
  definitions : SectionText DefinitionText
  uses : SectionText Token
  instructions : SectionText (InstructionText settings)

/-- A program as it is written. -/
inductive ProgramText (settings : Settings) where
  /-- No module follows. -/
  | ended
  /-- The last module stops after its definitions. -/
  | afterDefinitions (definitions : SectionText DefinitionText)
  /-- The last module stops after its uses. -/
  | afterUses (definitions : SectionText DefinitionText) (uses : SectionText Token)
  /-- A module with all its sections, and what follows it. -/
  | module (m : ModuleText settings) (rest : ProgramText settings)

/-! ### What a derivation looks like -/

def DefinitionText.tokens (d : DefinitionText) : List Token := [d.symbol, d.offset.token]

/-- The tokens of a use. -/
def Token.tokens (t : Token) : List Token := [t]

def InstructionText.tokens {settings : Settings} (x : InstructionText settings) : List Token :=
  [x.type, x.word]

/-- The tokens of a section whose items have the given ones. -/
def SectionText.tokens {α : Type} (yield : α → List Token) (c : SectionText α) : List Token :=
  c.count.token :: c.items.flatMap yield

section

variable {settings : Settings}

def ModuleText.tokens (m : ModuleText settings) : List Token :=
  m.definitions.tokens DefinitionText.tokens ++
    (m.uses.tokens Token.tokens ++ m.instructions.tokens InstructionText.tokens)

def ProgramText.tokens : ProgramText settings → List Token
  | .ended              => []
  | .afterDefinitions d => d.tokens DefinitionText.tokens
  | .afterUses d u      => d.tokens DefinitionText.tokens ++ u.tokens Token.tokens
  | .module m rest      => m.tokens ++ rest.tokens

/-! ### What a derivation means -/

def DefinitionText.definition (d : DefinitionText) : Definition where
  name := d.symbol.text
  relative := some d.offset.value
  absolute := none
  location := some d.symbol.location

/-- The use that a token writes. -/
def Token.use (t : Token) : Use where
  name := t.text
  location := some t.location

def InstructionText.instruction (x : InstructionText settings) : Instruction where
  classification := x.kind
  opcode := x.opcode
  address := x.address
  asRead := x.address
  relocated := false
  location := some x.word.location

/-- The module with the given definitions, uses and instructions, not yet placed. -/
def Module.ofTexts (settings : Settings) (ds : List DefinitionText) (us : List Token)
    (xs : List (InstructionText settings)) : Module where
  definitions := ds.map DefinitionText.definition
  uses := us.map Token.use
  instructions := xs.map InstructionText.instruction

/-- The modules of a written program, in order and not yet placed. -/
def ProgramText.modules : ProgramText settings → List Module
  | .ended              => []
  | .afterDefinitions d => [.ofTexts settings d.items [] []]
  | .afterUses d u      => [.ofTexts settings d.items u.items []]
  | .module m rest      =>
    .ofTexts settings m.definitions.items m.uses.items m.instructions.items :: rest.modules

/-- The store that a written program means: its modules, each with its position and the number of
instructions before it. -/
def ProgramText.store (p : ProgramText settings) : Store := .ofModules p.modules

/-! ### What a written program holds -/

end

/-- A program as it is read: offsets and addresses are numbers, the addresses of instructions are
addresses of the machine, and nothing has been relocated. -/
structure Store.AsRead (settings : Settings) (s : Store) : Prop where
  offset : ∀ m ∈ s.modules, ∀ d ∈ m.definitions, ∃ n : Nat, d.relative = some (n : Int)
  address : ∀ m ∈ s.modules, ∀ x ∈ m.instructions,
    ∃ a : Nat, x.address = a ∧ (a : Int) ≤ settings.maxAddress
  relocated : ∀ m ∈ s.modules, ∀ x ∈ m.instructions, x.relocated = false

theorem Store.AsRead.relative_ne_none {settings : Settings} {s : Store} (h : s.AsRead settings) :
    ∀ m ∈ s.modules, ∀ d ∈ m.definitions, d.relative ≠ none := by
  intro m hm d hd hnone
  obtain ⟨n, hn⟩ := h.offset m hm d hd
  cases hn.symm.trans hnone

section

variable {settings : Settings}

theorem ProgramText.exists_ofTexts {p : ProgramText settings} {m : Module} (h : m ∈ p.modules) :
    ∃ ds us xs, m = .ofTexts settings ds us xs := by
  induction p with
  | ended => cases h
  | afterDefinitions d => exact ⟨_, _, _, List.mem_singleton.1 h⟩
  | afterUses d u => exact ⟨_, _, _, List.mem_singleton.1 h⟩
  | module m' rest ih =>
    rcases List.mem_cons.1 h with rfl | h
    · exact ⟨_, _, _, rfl⟩
    · exact ih h

/-- A module of the store that a written program means is a written one, placed. -/
theorem ProgramText.exists_of_mem_store {p : ProgramText settings} {m : Module}
    (h : m ∈ p.store.modules) :
    ∃ ds us xs i n, m = (Module.ofTexts settings ds us xs).placedAt i n := by
  rw [store, Store.modules_ofModules] at h
  obtain ⟨m₀, h₀, i, n, rfl⟩ := Store.exists_of_mem_placedFrom h
  obtain ⟨ds, us, xs, rfl⟩ := exists_ofTexts h₀
  exact ⟨ds, us, xs, i, n, rfl⟩

/-- **What a written program means is as read.** -/
theorem ProgramText.asRead_store (p : ProgramText settings) : p.store.AsRead settings := by
  refine ⟨?_, ?_, ?_⟩
  · intro m hm d hd
    obtain ⟨ds, us, xs, i, n, rfl⟩ := exists_of_mem_store hm
    obtain ⟨t, -, rfl⟩ := List.mem_map.1 hd
    exact ⟨t.offset.value, rfl⟩
  · intro m hm x hx
    obtain ⟨ds, us, xs, i, n, rfl⟩ := exists_of_mem_store hm
    obtain ⟨t, -, rfl⟩ := List.mem_map.1 hx
    obtain ⟨c, cs, -, -, -, -, hmax⟩ := writesWord_iff.1 t.writes
    exact ⟨t.address, rfl, hmax⟩
  · intro m hm x hx
    obtain ⟨ds, us, xs, i, n, rfl⟩ := exists_of_mem_store hm
    obtain ⟨t, -, rfl⟩ := List.mem_map.1 hx
    rfl

/-- The address of an instruction of a written program is the one it was read with. -/
theorem ProgramText.asRead_eq_address {p : ProgramText settings} {m : Module} {x : Instruction}
    (hm : m ∈ p.store.modules) (hx : x ∈ m.instructions) : x.asRead = x.address := by
  obtain ⟨ds, us, xs, i, n, rfl⟩ := exists_of_mem_store hm
  obtain ⟨t, -, rfl⟩ := List.mem_map.1 hx
  rfl

/-- The tokens of an item are tokens of its section. -/
theorem SectionText.mem_tokens {α : Type} {yield : α → List Token} {c : SectionText α} {a : α}
    {t : Token} (ha : a ∈ c.items) (ht : t ∈ yield a) : t ∈ c.tokens yield :=
  List.mem_cons_of_mem _ (List.mem_flatMap.2 ⟨a, ha, ht⟩)

/-- The names of a module are written by some tokens. -/
def Module.NamedBy (ts : List Token) (m : Module) : Prop :=
  (∀ d ∈ m.definitions, ∃ t ∈ ts, t.text = d.name) ∧ ∀ u ∈ m.uses, ∃ t ∈ ts, t.text = u.name

theorem Module.namedBy_ofTexts {ts us : List Token} {ds : List DefinitionText}
    {xs : List (InstructionText settings)} (hd : ∀ d ∈ ds, d.symbol ∈ ts) (hu : ∀ u ∈ us, u ∈ ts) :
    (Module.ofTexts settings ds us xs).NamedBy ts := by
  constructor
  · intro d hd'
    obtain ⟨dt, hdt, rfl⟩ := List.mem_map.1 hd'
    exact ⟨dt.symbol, hd dt hdt, rfl⟩
  · intro u hu'
    obtain ⟨t, ht, rfl⟩ := List.mem_map.1 hu'
    exact ⟨t, hu t ht, rfl⟩

/-- The names of a written program are written by its tokens. -/
theorem ProgramText.namedBy_of_mem_modules {p : ProgramText settings} {m : Module}
    (h : m ∈ p.modules) : m.NamedBy p.tokens := by
  have hsymbol (c : SectionText DefinitionText) :
      ∀ d ∈ c.items, d.symbol ∈ c.tokens DefinitionText.tokens :=
    fun d hd => SectionText.mem_tokens hd List.mem_cons_self
  have huse (c : SectionText Token) : ∀ u ∈ c.items, u ∈ c.tokens Token.tokens :=
    fun u hu => SectionText.mem_tokens hu List.mem_cons_self
  induction p with
  | ended => cases h
  | afterDefinitions c =>
    rw [List.mem_singleton.1 h]
    exact Module.namedBy_ofTexts (hsymbol c) fun u hu => absurd hu List.not_mem_nil
  | afterUses c c' =>
    rw [List.mem_singleton.1 h]
    exact Module.namedBy_ofTexts (fun d hd => List.mem_append_left _ (hsymbol c d hd))
      fun u hu => List.mem_append_right _ (huse c' u hu)
  | module m' rest ih =>
    rcases List.mem_cons.1 h with rfl | h
    · exact Module.namedBy_ofTexts
        (fun d hd => List.mem_append_left _ (List.mem_append_left _ (hsymbol m'.definitions d hd)))
        fun u hu => List.mem_append_left _
          (List.mem_append_right _ (List.mem_append_left _ (huse m'.uses u hu)))
    · obtain ⟨hd, hu⟩ := ih h
      refine ⟨fun d hdm => ?_, fun u hum => ?_⟩
      · obtain ⟨t, ht, htext⟩ := hd d hdm
        exact ⟨t, List.mem_append_right _ ht, htext⟩
      · obtain ⟨t, ht, htext⟩ := hu u hum
        exact ⟨t, List.mem_append_right _ ht, htext⟩

theorem ProgramText.namedBy_of_mem_store {p : ProgramText settings} {m : Module}
    (h : m ∈ p.store.modules) : m.NamedBy p.tokens := by
  rw [store, Store.modules_ofModules] at h
  obtain ⟨m₀, h₀, i, n, rfl⟩ := Store.exists_of_mem_placedFrom h
  have hnamed : m₀.NamedBy p.tokens := namedBy_of_mem_modules h₀
  exact hnamed

/-! ### A program is written in one way -/

/-- The parts that the function writes can be told from their tokens and any tokens behind. -/
def SelfDelimiting {α : Type} (yield : α → List Token) : Prop :=
  ∀ (a b : α) (xs ys : List Token), yield a ++ xs = yield b ++ ys → a = b ∧ xs = ys

theorem NumberText.eq_of_token_eq {m n : NumberText} (h : m.token = n.token) : m = n := by
  obtain ⟨t, v, hm⟩ := m
  obtain ⟨t', v', hn⟩ := n
  obtain rfl : t = t' := h
  obtain rfl := hm.unique hn
  rfl

theorem DefinitionText.selfDelimiting : SelfDelimiting DefinitionText.tokens := by
  rintro ⟨s, o⟩ ⟨s', o'⟩ xs ys h
  simp only [tokens, List.cons_append, List.nil_append, List.cons.injEq] at h
  obtain ⟨rfl, ho, hxs⟩ := h
  rw [NumberText.eq_of_token_eq ho]
  exact ⟨rfl, hxs⟩

theorem Token.selfDelimiting : SelfDelimiting Token.tokens := by
  intro t t' xs ys h
  simpa [tokens] using h

theorem InstructionText.selfDelimiting :
    SelfDelimiting (@InstructionText.tokens settings) := by
  rintro ⟨t, w, k, o, a, hb, hw⟩ ⟨t', w', k', o', a', hb', hw'⟩ xs ys h
  simp only [tokens, List.cons_append, List.nil_append, List.cons.injEq] at h
  obtain ⟨rfl, rfl, hxs⟩ := h
  obtain rfl := hb.unique hb'
  obtain ⟨rfl, rfl⟩ := hw.unique hw'
  exact ⟨rfl, hxs⟩

/-- Two lists of as many self-delimiting items are told from their tokens. -/
theorem SelfDelimiting.flatMap {α : Type} {yield : α → List Token} (h : SelfDelimiting yield)
    {as bs : List α} {xs ys : List Token} (hlen : as.length = bs.length)
    (he : as.flatMap yield ++ xs = bs.flatMap yield ++ ys) : as = bs ∧ xs = ys := by
  induction as generalizing bs with
  | nil =>
    obtain rfl := List.length_eq_zero_iff.1 hlen.symm
    exact ⟨rfl, he⟩
  | cons a as ih =>
    cases bs with
    | nil => cases hlen
    | cons b bs =>
      rw [List.flatMap_cons, List.flatMap_cons, List.append_assoc, List.append_assoc] at he
      obtain ⟨rfl, he'⟩ := h a b _ _ he
      obtain ⟨rfl, hxs⟩ := ih (Nat.succ.inj hlen) he'
      exact ⟨rfl, hxs⟩

theorem SelfDelimiting.section {α : Type} {yield : α → List Token} (h : SelfDelimiting yield) :
    SelfDelimiting (SectionText.tokens yield) := by
  rintro ⟨n, as, hn⟩ ⟨n', bs, hn'⟩ xs ys he
  simp only [SectionText.tokens, List.cons_append, List.cons.injEq] at he
  obtain rfl := NumberText.eq_of_token_eq he.1
  obtain ⟨rfl, hxs⟩ := h.flatMap (hn.trans hn'.symm) he.2
  exact ⟨rfl, hxs⟩

theorem ModuleText.selfDelimiting : SelfDelimiting (@ModuleText.tokens settings) := by
  rintro ⟨d, u, x⟩ ⟨d', u', x'⟩ xs ys h
  simp only [tokens, List.append_assoc] at h
  obtain ⟨rfl, h₁⟩ := DefinitionText.selfDelimiting.section _ _ _ _ h
  obtain ⟨rfl, h₂⟩ := Token.selfDelimiting.section _ _ _ _ h₁
  obtain ⟨rfl, hxs⟩ := InstructionText.selfDelimiting.section _ _ _ _ h₂
  exact ⟨rfl, hxs⟩

/-- A section has its count at least. -/
theorem SectionText.tokens_ne_nil {α : Type} (yield : α → List Token) (c : SectionText α) :
    c.tokens yield ≠ [] := List.cons_ne_nil _ _

/-- The tokens of a module begin with those of its definitions. -/
theorem ModuleText.tokens_append (m : ModuleText settings) (ts : List Token) :
    m.tokens ++ ts = m.definitions.tokens DefinitionText.tokens ++
      (m.uses.tokens Token.tokens ++ (m.instructions.tokens InstructionText.tokens ++ ts)) := by
  rw [tokens, List.append_assoc, List.append_assoc]

/-- **A program is written in one way**: the tokens determine the derivation. -/
theorem ProgramText.tokens_injective {p q : ProgramText settings} (h : p.tokens = q.tokens) :
    p = q := by
  -- a program that stops early is not the beginning of another one: a count is missing there
  have hd := DefinitionText.selfDelimiting.section
  have hu := Token.selfDelimiting.section
  induction p generalizing q with
  | ended =>
    cases q with
    | ended => rfl
    | afterDefinitions d => cases h
    | afterUses d u => cases h
    | module m rest => cases h
  | afterDefinitions d =>
    cases q with
    | ended => cases h
    | afterDefinitions d' =>
      obtain ⟨rfl, -⟩ := hd d d' [] [] (by simpa [tokens] using h)
      rfl
    | afterUses d' u' =>
      have he := (hd d d' [] _ (by simpa [tokens] using h)).2
      exact absurd he.symm (u'.tokens_ne_nil _)
    | module m rest =>
      have he := (hd d m.definitions [] _ (by simpa [tokens, ModuleText.tokens_append] using h)).2
      cases he
  | afterUses d u =>
    cases q with
    | ended => cases h
    | afterDefinitions d' =>
      have he := (hd d d' _ [] (by simpa [tokens] using h)).2
      exact absurd he (u.tokens_ne_nil _)
    | afterUses d' u' =>
      obtain ⟨rfl, he⟩ := hd d d' _ _ h
      obtain ⟨rfl, -⟩ := hu u u' [] [] (by simpa using he)
      rfl
    | module m rest =>
      have he := (hd d m.definitions _ _ (by simpa [tokens, ModuleText.tokens_append] using h)).2
      have he' := (hu u m.uses [] _ (by simpa using he)).2
      cases he'
  | module m rest ih =>
    cases q with
    | ended => cases h
    | afterDefinitions d =>
      have he := (hd m.definitions d _ [] (by simpa [tokens, ModuleText.tokens_append] using h)).2
      cases he
    | afterUses d u =>
      have he := (hd m.definitions d _ _ (by simpa [tokens, ModuleText.tokens_append] using h)).2
      have he' := (hu m.uses u _ [] (by simpa using he)).2
      cases he'
    | module m' rest' =>
      obtain ⟨rfl, he⟩ := ModuleText.selfDelimiting m m' _ _ h
      rw [ih he]

end

end Linkage
