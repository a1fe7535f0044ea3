import Linkage.Proofs.Reading.Steps

/-!
# Reading — the reader accepts the written programs

`Reading.storeAfter` is the store that a reader ends with when it goes on with some tokens.  Part by
part, the reader accepts what the grammar derives and nothing else:

* an item of a section (`delivers_definition`, `delivers_use`, `delivers_instruction`),
* the items of a section (`Delivers.items`) and the section with its count (`Delivers.section`),
* one module, which may stop early (`storeAfter_module`),
* a program (`storeAfter_program`), from any reading that awaits a count of definitions.

Each of these is an equivalence, so acceptance and rejection are settled at once, and the store is
that of the derivation.  `parse_eq_ok_iff_derivation` states it for whole programs: the tokens that
are accepted are those of a `ProgramText`, of exactly one, and the store is the one it means.

`Reading.EndsAtBoundary` says of tokens that the reader awaits a count of definitions after them.
What follows such tokens is accepted as if it stood alone (`parse_append`).
-/

namespace Linkage

namespace Reading

open State

variable {settings : Settings} {r : Reading} {ts us : List Token} {s : Store}

/-! ### Going on with some tokens -/

/-- The store that a reading ends with when it goes on with some tokens; there is none when the
tokens are refused or more of them are due. -/
def storeAfter (settings : Settings) (r : Reading) (ts : List Token) : Option Store :=
  match run settings r ts with
  | .ok r'   => if r'.state.remaining = 0 then some r'.finished else none
  | .error _ => none

theorem storeAfter_nil (h : r.state.remaining = 0) : storeAfter settings r [] = some r.finished :=
  if_pos h

theorem storeAfter_nil_of_ne (h : r.state.remaining ≠ 0) : storeAfter settings r [] = none :=
  if_neg h

theorem storeAfter_cons {t : Token} :
    storeAfter settings r (t :: ts) = some s ↔
      ∃ r', r.step settings t = .ok r' ∧ storeAfter settings r' ts = some s := by
  unfold storeAfter run
  rw [List.foldlM_cons]
  cases r.step settings t with
  | ok r' =>
    constructor
    · intro h
      exact ⟨r', rfl, h⟩
    · rintro ⟨_, ⟨⟩, h⟩
      exact h
  | error e =>
    constructor
    · intro h
      cases h
    · rintro ⟨_, ⟨⟩, -⟩

/-- A token whose step is that of reading `x` from it. -/
theorem storeAfter_cons_of_map {t : Token} {α : Type} {x : Except Failure α} {f : α → Reading}
    (h : r.step settings t = x.map f) :
    storeAfter settings r (t :: ts) = some s ↔
      ∃ a, x = .ok a ∧ storeAfter settings (f a) ts = some s := by
  rw [storeAfter_cons, h]
  constructor
  · rintro ⟨r', hr', hs⟩
    obtain ⟨a, ha, rfl⟩ := map_eq_ok.1 hr'
    exact ⟨a, ha, hs⟩
  · rintro ⟨a, rfl, hs⟩
    exact ⟨f a, rfl, hs⟩

theorem run_append {r' : Reading} (h : run settings r ts = .ok r') :
    run settings r (ts ++ us) = run settings r' us := by
  rw [run, List.foldlM_append]
  exact congrArg (· >>= fun r' => us.foldlM (step settings) r') h

theorem storeAfter_append {r' : Reading} (h : run settings r ts = .ok r') :
    storeAfter settings r (ts ++ us) = storeAfter settings r' us := by
  rw [storeAfter, run_append h, storeAfter]

theorem parse_eq_ok : Store.parse settings ts = .ok s ↔ storeAfter settings {} ts = some s := by
  unfold Store.parse storeAfter
  cases run settings {} ts with
  | error e => exact iff_of_false (fun h => by cases h) (fun h => by cases h)
  | ok r =>
    show r.finish ts.getLast? = .ok s ↔
      (if r.state.remaining = 0 then some r.finished else none) = some s
    unfold finish
    split
    · simp only [Except.ok.injEq, Option.some.injEq]
    · split <;> simp only [reduceCtorEq]

/-! ### Items -/

/-- Where items of the section are due, the reader accepts the tokens of one and adds it to the
module. -/
def Delivers {α : Type} (settings : Settings) (part : Section) (yield : α → List Token)
    (add : Module → α → Module) : Prop :=
  ∀ (k : Nat) (m : Module) (st : Store) (ts : List Token) (s : Store),
    storeAfter settings ⟨due part (k + 1), some m, st⟩ ts = some s ↔
      ∃ a rest, ts = yield a ++ rest ∧
        storeAfter settings ⟨due part k, some (add m a), st⟩ rest = some s

theorem delivers_definition :
    Delivers settings .definitions DefinitionText.tokens
      (fun m d => m.addDefinition d.definition) := by
  intro k m st ts s
  constructor
  · intro h
    match ts with
    | [] => rw [storeAfter_nil_of_ne (remaining_due_succ_ne_zero _ k)] at h; cases h
    | [a] =>
      obtain ⟨r', hr', h⟩ := storeAfter_cons.1 h
      rw [step_symbol] at hr'
      cases hr'
      rw [storeAfter_nil_of_ne (remaining_half_ne_zero _ k a)] at h
      cases h
    | a :: b :: rest =>
      obtain ⟨r', hr', h⟩ := storeAfter_cons.1 h
      rw [step_symbol] at hr'
      cases hr'
      obtain ⟨n, hn, h⟩ := (storeAfter_cons_of_map step_offset).1 h
      exact ⟨⟨a, b, n, number_eq_ok.1 hn⟩, rest, rfl, h⟩
  · rintro ⟨d, rest, rfl, h⟩
    refine storeAfter_cons.2 ⟨_, step_symbol, ?_⟩
    exact (storeAfter_cons_of_map step_offset).2 ⟨_, number_eq_ok.2 d.offset.writes, h⟩

theorem delivers_use :
    Delivers settings .uses Token.tokens (fun m t => m.addUse t.use) := by
  intro k m st ts s
  constructor
  · intro h
    match ts with
    | [] => rw [storeAfter_nil_of_ne (remaining_due_succ_ne_zero _ k)] at h; cases h
    | a :: rest =>
      obtain ⟨r', hr', h⟩ := storeAfter_cons.1 h
      rw [step_use] at hr'
      cases hr'
      exact ⟨a, rest, rfl, h⟩
  · rintro ⟨t, rest, rfl, h⟩
    exact storeAfter_cons.2 ⟨_, step_use, h⟩

theorem delivers_instruction :
    Delivers settings .instructions (@InstructionText.tokens settings)
      (fun m x => m.addInstruction x.instruction) := by
  intro k m st ts s
  constructor
  · intro h
    match ts with
    | [] => rw [storeAfter_nil_of_ne (remaining_due_succ_ne_zero _ k)] at h; cases h
    | [a] =>
      obtain ⟨kind, -, h⟩ := (storeAfter_cons_of_map step_type).1 h
      rw [storeAfter_nil_of_ne (remaining_half_ne_zero _ k a)] at h
      cases h
    | a :: b :: rest =>
      obtain ⟨kind, hkind, h⟩ := (storeAfter_cons_of_map step_type).1 h
      have hb := classification_eq_ok.1 hkind
      obtain ⟨⟨o, n⟩, hw, h⟩ := (storeAfter_cons_of_map (step_word hb)).1 h
      exact ⟨⟨a, b, kind, o, n, hb, opcodeAndAddress_eq_ok.1 hw⟩, rest, rfl, h⟩
  · rintro ⟨x, rest, rfl, h⟩
    refine (storeAfter_cons_of_map step_type).2 ⟨_, classification_eq_ok.2 x.begins, ?_⟩
    exact (storeAfter_cons_of_map (step_word x.begins)).2
      ⟨(x.opcode, x.address), opcodeAndAddress_eq_ok.2 x.writes, h⟩

/-! ### Sections -/

section

variable {α : Type} {part : Section} {yield : α → List Token} {add : Module → α → Module}

theorem Delivers.items (h : Delivers settings part yield add) (k : Nat) (m : Module) (st : Store)
    (ts : List Token) (s : Store) :
    storeAfter settings ⟨due part k, some m, st⟩ ts = some s ↔
      ∃ (items : List α) (rest : List Token), items.length = k ∧
        ts = items.flatMap yield ++ rest ∧
          storeAfter settings ⟨beginning part.next, some (items.foldl add m), st⟩ rest
            = some s := by
  induction k generalizing m ts with
  | zero =>
    rw [due_zero]
    constructor
    · intro hs
      exact ⟨[], ts, rfl, rfl, hs⟩
    · rintro ⟨items, rest, hlen, rfl, hs⟩
      obtain rfl := List.length_eq_zero_iff.1 hlen
      exact hs
  | succ k ih =>
    rw [h]
    constructor
    · rintro ⟨a, rest, rfl, hs⟩
      obtain ⟨items, rest', rfl, rfl, hs'⟩ := (ih _ _).1 hs
      refine ⟨a :: items, rest', rfl, ?_, hs'⟩
      rw [List.flatMap_cons, List.append_assoc]
    · rintro ⟨items, rest, hlen, rfl, hs⟩
      cases items with
      | nil => cases hlen
      | cons a items =>
        refine ⟨a, items.flatMap yield ++ rest, ?_, ?_⟩
        · rw [List.flatMap_cons, List.append_assoc]
        · exact (ih _ _).2 ⟨items, rest, Nat.succ.inj hlen, rfl, hs⟩

/-- Where a count is due, the reader may stop, or it accepts the tokens of the section; the count
opens the module `m` over the store `st`. -/
theorem Delivers.section (h : Delivers settings part yield add) {i : Nat} {m : Module} {st : Store}
    (hr : r.state.remaining = 0)
    (hstep : ∀ t, r.step settings t =
      (number .invalidCount t i).map fun n => ⟨due part n, some m, st⟩) :
    storeAfter settings r ts = some s ↔
      (ts = [] ∧ r.finished = s) ∨
        ∃ (c : SectionText α) (rest : List Token), ts = c.tokens yield ++ rest ∧
          storeAfter settings ⟨beginning part.next, some (c.items.foldl add m), st⟩ rest
            = some s := by
  cases ts with
  | nil =>
    rw [storeAfter_nil hr, Option.some.injEq]
    constructor
    · intro hs
      exact .inl ⟨rfl, hs⟩
    · rintro (⟨-, hs⟩ | ⟨c, rest, hc, -⟩)
      · exact hs
      · cases hc
  | cons t ts =>
    rw [storeAfter_cons_of_map (hstep t)]
    constructor
    · rintro ⟨n, hn, hs⟩
      obtain ⟨items, rest, hlen, rfl, hs'⟩ := (h.items n m st ts s).1 hs
      exact .inr ⟨⟨⟨t, n, number_eq_ok.1 hn⟩, items, hlen⟩, rest, rfl, hs'⟩
    · rintro (⟨hc, -⟩ | ⟨⟨⟨t', n, hn⟩, items, hlen⟩, rest, hc, hs⟩)
      · cases hc
      · cases hc
        exact ⟨n, number_eq_ok.2 hn, (h.items n m st _ s).2 ⟨items, rest, hlen, rfl, hs⟩⟩

end

/-! ### Modules -/

theorem foldl_addDefinition (m : Module) (ds : List DefinitionText) :
    ds.foldl (fun m d => m.addDefinition d.definition) m =
      { m with definitions := m.definitions ++ ds.map DefinitionText.definition } := by
  rw [← foldl_concat]
  refine List.foldl_hom (fun ds => { m with definitions := ds }) fun _ _ => ?_
  rfl

theorem foldl_addUse (m : Module) (us : List Token) :
    us.foldl (fun m t => m.addUse t.use) m = { m with uses := m.uses ++ us.map Token.use } := by
  rw [← foldl_concat]
  refine List.foldl_hom (fun us => { m with uses := us }) fun _ _ => ?_
  rfl

theorem foldl_addInstruction (m : Module) (xs : List (InstructionText settings)) :
    xs.foldl (fun m x => m.addInstruction x.instruction) m =
      { m with instructions := m.instructions ++ xs.map InstructionText.instruction } := by
  rw [← foldl_concat]
  refine List.foldl_hom (fun xs => { m with instructions := xs }) fun _ _ => ?_
  rfl

/-- The reading awaits a count of definitions. -/
def AtBoundary (r : Reading) : Prop := r.state.part = .definitions ∧ r.state.role = .count

/-- The reading after a module with all its sections. -/
def afterModule (m : Module) (st : Store) : Reading := ⟨beginning .definitions, some m, st⟩

theorem atBoundary_afterModule (m : Module) (st : Store) : (afterModule m st).AtBoundary :=
  ⟨rfl, rfl⟩

/-- At a boundary the reader may stop, or it accepts one module, which may stop early. -/
theorem storeAfter_module (hr : r.AtBoundary) :
    storeAfter settings r ts = some s ↔
      (ts = [] ∧ r.finished = s) ∨
      (∃ d : SectionText DefinitionText, ts = d.tokens DefinitionText.tokens ∧
        r.finished.append (.ofTexts settings d.items [] []) = s) ∨
      (∃ (d : SectionText DefinitionText) (u : SectionText Token),
        ts = d.tokens DefinitionText.tokens ++ u.tokens Token.tokens ∧
          r.finished.append (.ofTexts settings d.items u.items []) = s) ∨
      ∃ (m : ModuleText settings) (rest : List Token), ts = m.tokens ++ rest ∧
        storeAfter settings (afterModule
          (.ofTexts settings m.definitions.items m.uses.items m.instructions.items) r.finished) rest
            = some s := by
  obtain ⟨hp, hr⟩ := hr
  have hr := role_eq_count.1 hr
  have hd (t : Token) : r.step settings t = (number .invalidCount t r.store.count).map fun n =>
      ⟨due .definitions n, some {}, r.finished⟩ := by
    rw [step_count hr]; simp only [if_pos hp]
  have hu (m : Module) (t : Token) : step settings ⟨beginning .uses, some m, r.finished⟩ t =
      (number .invalidCount t r.finished.count).map fun n =>
        ⟨due .uses n, some m, r.finished⟩ := step_count rfl
  have hi (m : Module) (t : Token) : step settings ⟨beginning .instructions, some m, r.finished⟩ t =
      (number .invalidCount t r.finished.count).map fun n =>
        ⟨due .instructions n, some m, r.finished⟩ := step_count rfl
  rw [delivers_definition.section hr hd]
  refine or_congr Iff.rfl ?_
  constructor
  · rintro ⟨d, rest, rfl, h⟩
    rw [foldl_addDefinition] at h
    rcases (delivers_use.section rfl (hu _)).1 h with ⟨rfl, rfl⟩ | ⟨u, rest, rfl, h₁⟩
    · exact .inl ⟨d, List.append_nil _, rfl⟩
    · rw [foldl_addUse] at h₁
      rcases (delivers_instruction.section rfl (hi _)).1 h₁ with ⟨rfl, rfl⟩ | ⟨x, rest, rfl, h₂⟩
      · exact .inr (.inl ⟨d, u, by rw [List.append_nil], rfl⟩)
      · rw [foldl_addInstruction] at h₂
        exact .inr (.inr ⟨⟨d, u, x⟩, rest, (ModuleText.tokens_append ⟨d, u, x⟩ rest).symm, h₂⟩)
  · rintro (⟨d, rfl, rfl⟩ | ⟨d, u, rfl, rfl⟩ | ⟨⟨d, u, x⟩, rest, rfl, h⟩)
    · refine ⟨d, [], (List.append_nil _).symm, ?_⟩
      rw [foldl_addDefinition]
      exact (delivers_use.section rfl (hu _)).2 (.inl ⟨rfl, rfl⟩)
    · refine ⟨d, _, rfl, ?_⟩
      rw [foldl_addDefinition]
      refine (delivers_use.section rfl (hu _)).2 (.inr ⟨u, [], (List.append_nil _).symm, ?_⟩)
      rw [foldl_addUse]
      exact (delivers_instruction.section rfl (hi _)).2 (.inl ⟨rfl, rfl⟩)
    · refine ⟨d, _, ModuleText.tokens_append ⟨d, u, x⟩ rest, ?_⟩
      rw [foldl_addDefinition]
      refine (delivers_use.section rfl (hu _)).2 (.inr ⟨u, _, rfl, ?_⟩)
      rw [foldl_addUse]
      refine (delivers_instruction.section rfl (hi _)).2 (.inr ⟨x, rest, rfl, ?_⟩)
      rw [foldl_addInstruction]
      exact h

/-! ### Programs -/

/-- **The reader accepts the written programs**, from any reading that awaits a module: it places
their modules behind those it has. -/
theorem storeAfter_program (hr : r.AtBoundary) :
    storeAfter settings r ts = some s ↔
      ∃ p : ProgramText settings, p.tokens = ts ∧ r.finished.appendAll p.modules = s := by
  -- each module has its count of definitions at least, so the tokens behind it are fewer
  induction hn : ts.length using Nat.strongRecOn generalizing r ts with
  | ind n ih =>
    rw [storeAfter_module hr]
    have hrest (m : ModuleText settings) (rest : List Token) (hts : ts = m.tokens ++ rest) :=
      ih rest.length (by rw [← hn, hts, ModuleText.tokens, SectionText.tokens]; simp; omega)
        (atBoundary_afterModule
          (.ofTexts settings m.definitions.items m.uses.items m.instructions.items) r.finished) rfl
    constructor
    · rintro (⟨rfl, rfl⟩ | ⟨d, rfl, rfl⟩ | ⟨d, u, rfl, rfl⟩ | ⟨m, rest, rfl, h⟩)
      · exact ⟨.ended, rfl, rfl⟩
      · exact ⟨.afterDefinitions d, rfl, rfl⟩
      · exact ⟨.afterUses d u, rfl, rfl⟩
      · obtain ⟨p, rfl, rfl⟩ := (hrest m rest rfl).1 h
        exact ⟨.module m p, rfl, rfl⟩
    · rintro ⟨p, hp, rfl⟩
      cases p with
      | ended => exact .inl ⟨hp.symm, rfl⟩
      | afterDefinitions d => exact .inr (.inl ⟨d, hp.symm, rfl⟩)
      | afterUses d u => exact .inr (.inr (.inl ⟨d, u, hp.symm, rfl⟩))
      | module m p =>
        exact .inr (.inr (.inr ⟨m, p.tokens, hp.symm, (hrest m _ hp.symm).2 ⟨p, rfl, rfl⟩⟩))

/-- The tokens are read without a failure, and a count of definitions is awaited after them. -/
def EndsAtBoundary (settings : Settings) (ts : List Token) : Prop :=
  ∃ r, run settings {} ts = .ok r ∧ r.AtBoundary

end Reading

/-- The tokens of some words that stand in one line. -/
def Token.inLine (words : List String) : List Token :=
  words.zipIdx.map fun (w, i) => ⟨w, i, ⟨"-", 1, i + 1⟩⟩

/-- Two modules; the second one stops after its uses. -/
def stoppedAfterUses : List Token :=
  Token.inLine
    ["1", "x", "007", "1", "y", "2", "Int", "1007", "E", "20", "1", "y", "0", "0"]

namespace Store

variable {settings : Settings} {ts us : List Token} {s s' : Store}

/-- The tokens that are accepted are those of a derivation, and the store is what it means. -/
theorem parse_eq_ok_iff :
    parse settings ts = .ok s ↔ ∃ p : ProgramText settings, p.tokens = ts ∧ p.store = s := by
  rw [Reading.parse_eq_ok, Reading.storeAfter_program ⟨rfl, rfl⟩]
  simp only [ProgramText.store, ← appendAll_empty]
  rfl

theorem laidOut_of_parse (h : parse settings ts = .ok s) : s.LaidOut := by
  obtain ⟨p, -, rfl⟩ := parse_eq_ok_iff.1 h
  exact laidOut_ofModules p.modules

theorem asRead_of_parse (h : parse settings ts = .ok s) : s.AsRead settings := by
  obtain ⟨p, -, rfl⟩ := parse_eq_ok_iff.1 h
  exact p.asRead_store

/-- The address of an instruction of a program that has been read is the one it was read with. -/
theorem asRead_eq_of_parse (h : parse settings ts = .ok s) :
    ∀ m ∈ s.modules, ∀ x ∈ m.instructions, x.asRead = x.address ∧ ∃ k : Nat, x.address = k := by
  intro m hm x hx
  obtain ⟨k, hk, -⟩ := (asRead_of_parse h).address m hm x hx
  obtain ⟨p, -, rfl⟩ := parse_eq_ok_iff.1 h
  exact ⟨p.asRead_eq_address hm hx, k, hk⟩

/-- The names of a program that has been read are written by its tokens. -/
theorem namedBy_of_parse (h : parse settings ts = .ok s) : ∀ m ∈ s.modules, m.NamedBy ts := by
  intro m hm
  obtain ⟨p, rfl, rfl⟩ := parse_eq_ok_iff.1 h
  exact p.namedBy_of_mem_store hm

/-- **Concatenation.**  What follows tokens that end at a boundary is accepted as if it stood alone,
and its modules are placed behind theirs. -/
theorem parse_append (h : parse settings ts = .ok s) (hb : Reading.EndsAtBoundary settings ts) :
    parse settings (ts ++ us) = .ok s' ↔
      ∃ s₂, parse settings us = .ok s₂ ∧ s' = s.followedBy s₂ := by
  obtain ⟨r, hr, hr'⟩ := hb
  have hs : r.finished = s := by
    have hr₀ := Reading.parse_eq_ok.1 h
    rw [← List.append_nil ts, Reading.storeAfter_append hr,
      Reading.storeAfter_nil (Reading.State.role_eq_count.1 hr'.2)] at hr₀
    exact Option.some.inj hr₀
  rw [Reading.parse_eq_ok, Reading.storeAfter_append hr, Reading.storeAfter_program hr', hs]
  constructor
  · rintro ⟨p, hp, rfl⟩
    exact ⟨p.store, parse_eq_ok_iff.2 ⟨p, hp, rfl⟩, (laidOut_of_parse h).appendAll p.modules⟩
  · rintro ⟨s₂, h₂, rfl⟩
    obtain ⟨p, hp, rfl⟩ := parse_eq_ok_iff.1 h₂
    exact ⟨p, hp, (laidOut_of_parse h).appendAll p.modules⟩

/-- **The parser accepts exactly the grammar.**  The tokens that are accepted are those of a
derivation, the derivation is unique, and the store is the one it means: the modules in order, each
with its position and the number of instructions before it, and with the definitions, uses and
instructions that its tokens write. -/
theorem parse_eq_ok_iff_derivation (settings : Settings) (ts : List Token) :
    (∀ s, parse settings ts = .ok s ↔ ∃ p : ProgramText settings, p.tokens = ts ∧ p.store = s) ∧
      ∀ p q : ProgramText settings, p.tokens = ts → q.tokens = ts → p = q :=
  ⟨fun _ => parse_eq_ok_iff, fun _ _ hp hq => ProgramText.tokens_injective (hp.trans hq.symm)⟩

/-- The first module exports `x`, uses `y` and has two words; the second one exports `y`. -/
theorem parse_eq_ok_iff_derivation_stoppedAfterUses :
    let s : Store := ⟨[
      { index := 0
        start := 0
        definitions := [⟨"x", some 7, none, some ⟨"-", 1, 2⟩⟩]
        uses := [⟨"y", some ⟨"-", 1, 5⟩⟩]
        instructions := [⟨.immediate, 1, 7, 7, false, some ⟨"-", 1, 8⟩⟩,
          ⟨.external, 2, 0, 0, false, some ⟨"-", 1, 10⟩⟩] },
      { index := 1
        start := 2
        definitions := [⟨"y", some 0, none, some ⟨"-", 1, 12⟩⟩]
        uses := []
        instructions := [] }]⟩
    parse { machineSize := 8 } stoppedAfterUses = .ok s ∧
      ∃ p : ProgramText { machineSize := 8 }, p.tokens = stoppedAfterUses ∧ p.store = s ∧
        ∀ q : ProgramText { machineSize := 8 }, q.tokens = stoppedAfterUses → q = p := by
  intro s
  have hs : parse { machineSize := 8 } stoppedAfterUses = .ok s := rfl
  obtain ⟨haccepts, hunique⟩ := parse_eq_ok_iff_derivation { machineSize := 8 } stoppedAfterUses
  obtain ⟨p, hp, hstore⟩ := (haccepts s).1 hs
  exact ⟨hs, p, hp, hstore, fun q hq => hunique q p hq hp⟩

end Store

end Linkage
