import Linkage.Proofs.Fold
import Linkage.Proofs.Reading.Grammar

/-!
# Reading — the steps of a reader

A reader is always in one of four situations (`Reading.Regular`): it has read nothing, it is between
two items of a section (`State.due`, which also stands for a count that is due), or it holds the
first half of a definition or of an instruction (`State.half`).  In the last case that half is
classified, so the second classification of it cannot fail.

For each situation one equation says what a token does there: `step_count`, `step_symbol`,
`step_offset`, `step_use`, `step_type` and `step_word`.  So a step from a regular reading is one of
eight (`Regular.transition`).  All of them lead to regular readings, hence so does a run
(`regular_run`).  What may go wrong in a step is what may go wrong in reading the one thing that the
role of the token asks for (`Regular.stepBy`).
-/

namespace Linkage.Reading

/-! ### States between items and within a pair -/

namespace State

/-- The state in which `k` items of the section are due; with none due the next section begins. -/
def due (part : Section) (k : Nat) : State := (beginning part).expecting k

/-- The state within a pair whose first token is given, with `k` pairs due after it. -/
def half (part : Section) (k : Nat) (first : Token) : State :=
  ⟨part, (k : Int) * 2 + 1, some first⟩

theorem due_zero (part : Section) : due part 0 = beginning part.next := rfl

theorem due_succ (part : Section) (k : Nat) :
    due part (k + 1) = ⟨part, ((k + 1 : Nat) : Int) * part.tokensPerItem, none⟩ := by
  rw [due, expecting, if_neg (by omega)]
  rfl

theorem expecting_eq_due {s : State} {part : Section} (h : s.part = part) (k : Nat) :
    s.expecting k = due part k := by
  rw [due, expecting, expecting, h]
  rfl

/-- As many tokens are expected as the items that are due have. -/
theorem remaining_due (part : Section) (k : Nat) :
    (due part k).remaining = (k * part.tokensPerItem : Nat) := by
  cases k with
  | zero => rw [due_zero, Nat.zero_mul]; rfl
  | succ k => rw [due_succ, Int.natCast_mul]

theorem remaining_due_succ_ne_zero (part : Section) (k : Nat) :
    (due part (k + 1)).remaining ≠ 0 := by
  have hpos := Nat.mul_pos (Nat.succ_pos k) part.tokensPerItem_pos
  rw [remaining_due]
  exact Int.natCast_ne_zero.2 (Nat.pos_iff_ne_zero.1 hpos)

theorem remaining_half_pos (part : Section) (k : Nat) (first : Token) :
    0 < (half part k first).remaining := by
  show 0 < (k : Int) * 2 + 1
  omega

theorem remaining_half_ne_zero (part : Section) (k : Nat) (first : Token) :
    (half part k first).remaining ≠ 0 :=
  (Int.ne_of_lt (remaining_half_pos part k first)).symm

theorem pending_due (part : Section) (k : Nat) : (due part k).pending = none := by
  cases k with
  | zero => rfl
  | succ k => rw [due_succ]

/-- After the first half of a pair. -/
theorem consumed_due (part : Section) (h : part.tokensPerItem = 2) (k : Nat) (t : Token) :
    (due part (k + 1)).consumed (some t) = half part k t := by
  rw [due_succ, h, consumed, half]
  have hk : ((k + 1 : Nat) : Int) * (2 : Nat) - 1 = (k : Int) * 2 + 1 := by omega
  rw [hk, if_neg (by omega)]

/-- After the second half of a pair. -/
theorem consumed_half (part : Section) (h : part.tokensPerItem = 2) (k : Nat) (first : Token) :
    (half part k first).consumed none = due part k := by
  cases k with
  | zero => rfl
  | succ k =>
    rw [due_succ, h, consumed, half]
    have hk : ((k + 1 : Nat) : Int) * 2 + 1 - 1 = ((k + 1 : Nat) : Int) * (2 : Nat) := by omega
    rw [hk, if_neg (by omega)]

theorem consumed_due_uses (k : Nat) : (due .uses (k + 1)).consumed none = due .uses k := by
  cases k with
  | zero => rfl
  | succ k =>
    rw [due_succ, due_succ, consumed]
    have hk : ((k + 1 + 1 : Nat) : Int) * (Section.uses.tokensPerItem : Nat) - 1 =
        ((k + 1 : Nat) : Int) * (Section.uses.tokensPerItem : Nat) := by
      simp only [Section.tokensPerItem]; omega
    rw [hk, if_neg (by simp only [Section.tokensPerItem]; omega)]

theorem role_due_definitions (k : Nat) : (due .definitions (k + 1)).role = .definitionSymbol := by
  rw [role, if_neg (remaining_due_succ_ne_zero _ k), due_succ]
  exact if_pos (Int.mul_emod_left _ _)

theorem role_due_uses (k : Nat) : (due .uses (k + 1)).role = .use := by
  rw [role, if_neg (remaining_due_succ_ne_zero _ k), due_succ]

theorem role_due_instructions (k : Nat) : (due .instructions (k + 1)).role = .instructionType := by
  rw [role, if_neg (remaining_due_succ_ne_zero _ k), due_succ]
  exact if_pos (Int.mul_emod_left _ _)

/-- Between items a count is due, or the first token of an item. -/
theorem role_due_ne (part : Section) (k : Nat) :
    (due part k).role ≠ .definitionLocation ∧ (due part k).role ≠ .instructionWord := by
  cases k with
  | zero =>
    rw [due_zero, role_eq_count.2 rfl]
    decide
  | succ k =>
    cases part with
    | definitions => rw [role_due_definitions]; decide
    | uses => rw [role_due_uses]; decide
    | instructions => rw [role_due_instructions]; decide

theorem role_half_definitions (k : Nat) (first : Token) :
    (half .definitions k first).role = .definitionLocation := by
  rw [role, if_neg (remaining_half_ne_zero _ k first)]
  exact if_neg (by show ¬ ((k : Int) * 2 + 1) % 2 = 0; omega)

theorem role_half_instructions (k : Nat) (first : Token) :
    (half .instructions k first).role = .instructionWord := by
  rw [role, if_neg (remaining_half_ne_zero _ k first)]
  exact if_neg (by show ¬ ((k : Int) * 2 + 1) % 2 = 0; omega)

end State

open State

variable {settings : Settings} {m : Option Module} {st : Store} {k : Nat} {t first : Token}

/-! ### One step in each situation -/

/-- A count opens its section; a count of definitions also opens a module and places the one
before it. -/
theorem step_count {r : Reading} (hr : r.state.remaining = 0) :
    r.step settings t = (number .invalidCount t r.store.count).map fun n =>
      if r.state.part = .definitions then ⟨due .definitions n, some {}, r.finished⟩
      else { r with state := due r.state.part n } := by
  rw [step, role_eq_count.2 hr]
  cases number .invalidCount t r.store.count with
  | error e => rfl
  | ok n =>
    simp only [bind, Except.bind, Except.map]
    cases hp : r.state.part with
    | definitions => simp only [if_true, expecting_eq_due hp]
    | uses => simp only [reduceCtorEq, if_false, expecting_eq_due hp]
    | instructions => simp only [reduceCtorEq, if_false, expecting_eq_due hp]

theorem step_symbol :
    step settings ⟨due .definitions (k + 1), m, st⟩ t = .ok ⟨half .definitions k t, m, st⟩ := by
  rw [step, role_due_definitions]
  simp only [consume, consumed_due .definitions rfl]

theorem step_offset :
    step settings ⟨half .definitions k first, m, st⟩ t =
      (number .invalidLocation t st.count).map fun n =>
        ⟨due .definitions k, some ((m.getD {}).addDefinition
          (.fresh first.text (some n) (some first.location))), st⟩ := by
  rw [step, role_half_definitions]
  cases number .invalidLocation t st.count with
  | error e => rfl
  | ok n =>
    simp only [bind, Except.bind, Except.map, complete, consumed_half .definitions rfl]
    rfl

theorem step_use :
    step settings ⟨due .uses (k + 1), m, st⟩ t =
      .ok ⟨due .uses k, some ((m.getD {}).addUse t.use), st⟩ := by
  rw [step, role_due_uses]
  simp only [complete, consumed_due_uses]
  rfl

theorem step_type :
    step settings ⟨due .instructions (k + 1), m, st⟩ t =
      (classification t st.count).map fun _ => ⟨half .instructions k t, m, st⟩ := by
  rw [step, role_due_instructions]
  cases classification t st.count with
  | error e => rfl
  | ok kind =>
    simp only [bind, Except.bind, Except.map, consume, consumed_due .instructions rfl]

/-- The first half has been classified already, so only the word can be wrong. -/
theorem step_word {kind : Classification} (hk : kind.Begins first.chars) :
    step settings ⟨half .instructions k first, m, st⟩ t =
      (opcodeAndAddress settings t st.count (m.getD {}).length).map fun w =>
        ⟨due .instructions k, some ((m.getD {}).addInstruction
          (.fresh kind w.1 w.2 (some t.location))), st⟩ := by
  have hc : classification first st.count = .ok kind := classification_eq_ok.2 hk
  have hf : firstOfPair ⟨half .instructions k first, m, st⟩ t = first := rfl
  rw [step, role_half_instructions]
  simp only [hf, hc, bind, Except.bind, filling]
  cases opcodeAndAddress settings t st.count (m.getD {}).length with
  | error e => rfl
  | ok w => simp only [Except.map, complete, consumed_half .instructions rfl]

/-! ### Every reading is regular -/

/-- The situations a reader can be in. -/
inductive Regular : Reading → Prop where
  /-- Nothing has been read. -/
  | start : Regular {}
  /-- Some items of a section, or its count, are due. -/
  | due (part : Section) (k : Nat) (m : Module) (st : Store) : Regular ⟨due part k, some m, st⟩
  /-- The symbol of a definition has been read. -/
  | symbol (k : Nat) (first : Token) (m : Module) (st : Store) :
      Regular ⟨half .definitions k first, some m, st⟩
  /-- The type of an instruction has been read, and it was classified. -/
  | type (k : Nat) (first : Token) (kind : Classification) (m : Module) (st : Store)
      (h : kind.Begins first.chars) : Regular ⟨half .instructions k first, some m, st⟩

/-- The steps a reader can take at the token `t`. -/
inductive Transition (settings : Settings) (t : Token) : Reading → Reading → Prop where
  /-- The first count opens a module. -/
  | first (n : Nat) (hn : Numeral.Writes t.chars n) :
      Transition settings t {} ⟨due .definitions n, some {}, .empty⟩
  /-- A count behind the instructions opens a module and places the one before it. -/
  | module (n : Nat) (m : Module) (st : Store) (hn : Numeral.Writes t.chars n) :
      Transition settings t ⟨due .instructions 0, some m, st⟩
        ⟨due .definitions n, some {}, st.append m⟩
  /-- A count opens the uses or the instructions. -/
  | count (part : Section) (n : Nat) (m : Module) (st : Store) (hpart : part ≠ .instructions)
      (hn : Numeral.Writes t.chars n) :
      Transition settings t ⟨due part 0, some m, st⟩ ⟨due part.next n, some m, st⟩
  | symbol (k : Nat) (m : Module) (st : Store) :
      Transition settings t ⟨due .definitions (k + 1), some m, st⟩
        ⟨half .definitions k t, some m, st⟩
  | offset (k n : Nat) (first : Token) (m : Module) (st : Store)
      (hn : Numeral.Writes t.chars n) :
      Transition settings t ⟨half .definitions k first, some m, st⟩
        ⟨due .definitions k, some (m.addDefinition
          (.fresh first.text (some n) (some first.location))), st⟩
  | use (k : Nat) (m : Module) (st : Store) :
      Transition settings t ⟨due .uses (k + 1), some m, st⟩
        ⟨due .uses k, some (m.addUse t.use), st⟩
  | type (k : Nat) (kind : Classification) (m : Module) (st : Store)
      (hk : kind.Begins t.chars) :
      Transition settings t ⟨due .instructions (k + 1), some m, st⟩
        ⟨half .instructions k t, some m, st⟩
  | word (k opcode address : Nat) (kind : Classification) (first : Token) (m : Module) (st : Store)
      (hk : kind.Begins first.chars) (hw : WritesWord settings t.chars opcode address) :
      Transition settings t ⟨half .instructions k first, some m, st⟩
        ⟨due .instructions k, some (m.addInstruction
          (.fresh kind opcode address (some t.location))), st⟩

/-- **A step from a regular reading** is one of these. -/
theorem Regular.transition {r r' : Reading} (hr : r.Regular) (h : r.step settings t = .ok r') :
    Transition settings t r r' := by
  cases hr with
  | start =>
    rw [step_count rfl, map_eq_ok] at h
    obtain ⟨n, hn, rfl⟩ := h
    exact .first n (number_eq_ok.1 hn)
  | due part k m st =>
    cases k with
    | zero =>
      rw [step_count rfl, map_eq_ok] at h
      obtain ⟨n, hnumber, rfl⟩ := h
      have hn := number_eq_ok.1 hnumber
      cases part with
      | definitions => exact .count .definitions n m st (by decide) hn
      | uses => exact .count .uses n m st (by decide) hn
      | instructions => exact .module n m st hn
    | succ k =>
      cases part with
      | definitions => rw [step_symbol] at h; cases h; exact .symbol k m st
      | uses => rw [step_use] at h; cases h; exact .use k m st
      | instructions =>
        rw [step_type, map_eq_ok] at h
        obtain ⟨kind, hk, rfl⟩ := h
        exact .type k kind m st (classification_eq_ok.1 hk)
  | symbol k first m st =>
    rw [step_offset, map_eq_ok] at h
    obtain ⟨n, hn, rfl⟩ := h
    exact .offset k n first m st (number_eq_ok.1 hn)
  | type k first kind m st hk =>
    rw [step_word hk, map_eq_ok] at h
    obtain ⟨w, hw, rfl⟩ := h
    exact .word k w.1 w.2 kind first m st hk (opcodeAndAddress_eq_ok.1 hw)

theorem Transition.regular {r r' : Reading} (h : Transition settings t r r') : r'.Regular := by
  cases h with
  | first n hn => exact .due _ n _ _
  | module n m st hn => exact .due _ n _ _
  | count part n m st hpart hn => exact .due _ n m st
  | symbol k m st => exact .symbol k t m st
  | offset k n first m st hn => exact .due _ k _ st
  | use k m st => exact .due _ k _ st
  | type k kind m st hk => exact .type k t kind m st hk
  | word k opcode address kind first m st hk hw => exact .due _ k _ st

/-- A step from a regular reading gives a regular reading. -/
theorem Regular.step {r r' : Reading} (hr : r.Regular) (h : r.step settings t = .ok r') :
    r'.Regular :=
  (hr.transition h).regular

/-- Every reading that a run reaches is regular. -/
theorem regular_run {r r' : Reading} {ts : List Token} (hr : r.Regular)
    (h : run settings r ts = .ok r') : r'.Regular :=
  foldlM_preserves (fun _ _ _ _ hr h => Regular.step hr h) hr h

/-! ### What a step reads -/

/-- A step by the role of its token, in module `i`: it goes on with what it reads from the token as
that role asks, or it goes on at once. -/
inductive StepBy (settings : Settings) (t : Token) (i : Nat) :
    Role → Except Failure Reading → Prop where
  | count (next : Nat → Reading) :
      StepBy settings t i .count ((number .invalidCount t i).map next)
  | symbol (r : Reading) : StepBy settings t i .definitionSymbol (.ok r)
  | location (next : Nat → Reading) :
      StepBy settings t i .definitionLocation ((number .invalidLocation t i).map next)
  | use (r : Reading) : StepBy settings t i .use (.ok r)
  | type (next : Classification → Reading) :
      StepBy settings t i .instructionType ((classification t i).map next)
  | word (j : Nat) (next : Nat × Nat → Reading) :
      StepBy settings t i .instructionWord ((opcodeAndAddress settings t i j).map next)

theorem stepBy_of_remaining {r : Reading} (hr : r.state.remaining = 0) :
    StepBy settings t r.store.count r.state.role (r.step settings t) := by
  rw [role_eq_count.2 hr, step_count hr]
  exact .count _

/-- **A step of a regular reading** reads one thing, which its role decides. -/
theorem Regular.stepBy {r : Reading} (hr : r.Regular) :
    StepBy settings t r.store.count r.state.role (r.step settings t) := by
  cases hr with
  | start => exact stepBy_of_remaining rfl
  | due part k m st =>
    cases k with
    | zero => exact stepBy_of_remaining rfl
    | succ k =>
      cases part with
      | definitions => rw [role_due_definitions, step_symbol]; exact .symbol _
      | uses => rw [role_due_uses, step_use]; exact .use _
      | instructions => rw [role_due_instructions, step_type]; exact .type _
  | symbol k first m st => rw [role_half_definitions, step_offset]; exact .location _
  | type k first kind m st hk => rw [role_half_instructions, step_word hk]; exact .word _ _

end Linkage.Reading
