import Linkage.Proofs.Reading.Partial
import Linkage.Proofs.Scanning

/-!
# Reading — the token that a reader refuses

A reader that fails with an error of the program has refused one token, or it has come to the end of
the input where more tokens are due (`Store.parse_eq_link`).  What is wrong with a token is said by
its characters and its role alone (`Token.Faulty`); the role, and the module that the token belongs
to, are those of the partial program before it.

**The module that an error names** (`Store.parse_error_moduleIndex`) is the module the token belongs
to, but for one role.  A count of definitions belongs to the module it would open, and the reader is
then still in the module before: the error names that one.  At the first module there is none
before, and the error is right.
-/

namespace Linkage

/-- The cause for which a reader refuses a token in the role; in its module `j` instructions precede
the token. -/
def Token.Faulty (settings : Settings) (t : Token) (j : Nat) (c : Cause) : Role → Prop
  | .count              => ¬ Numeral.isNumeral t.chars ∧ c = .invalidCount t.text
  | .definitionSymbol   => False
  | .definitionLocation => ¬ Numeral.isNumeral t.chars ∧ c = .invalidLocation t.text
  | .use                => False
  | .instructionType    =>
    t.chars ≠ [] ∧ (∀ k : Classification, ¬ k.Begins t.chars) ∧ c = .invalidType t.text
  | .instructionWord    =>
    (t.chars.length < 2 ∧ c = .shortWord t.text) ∨
      (2 ≤ t.chars.length ∧ ¬ Numeral.isNumeral t.chars ∧ c = .nonDigitWord t.text) ∨
        2 ≤ t.chars.length ∧ Numeral.isNumeral t.chars ∧
          ∃ n, Numeral.Writes t.chars.tail n ∧ settings.maxAddress < n ∧
            c = .addressOutOfRange n settings.machineSize (some j)

variable {settings : Settings} {t : Token} {i j : Nat} {e : LinkError}

namespace Reading

/-! ### One token -/

theorem number_eq_link {cause : String → Cause} :
    number cause t i = .error (.link e) ↔
      ¬ Numeral.isNumeral t.chars ∧ e = ⟨cause t.text, some t.location, i⟩ := by
  rw [number_eq]
  by_cases hn : Numeral.isNumeral t.chars = true
  · rw [if_pos hn]
    split <;> simp [hn]
  · simp [hn, rejected, eq_comm]

theorem classification_eq_link :
    classification t i = .error (.link e) ↔
      t.chars ≠ [] ∧ (∀ k : Classification, ¬ k.Begins t.chars) ∧
        e = ⟨.invalidType t.text, some t.location, i⟩ := by
  have hbegins (k : Classification) : k.Begins t.chars ↔ classification t i = .ok k :=
    classification_eq_ok.symm
  simp only [hbegins]
  unfold classification
  split
  · next hc => simp [hc]
  · next c cs hc => cases Classification.ofLetter? c <;> simp [hc, rejected, eq_comm]

theorem rejected_eq_link {c : Cause} :
    (.error (rejected t i c) : Except Failure (Nat × Nat)) = .error (.link e) ↔
      e = ⟨c, some t.location, i⟩ := by
  simp [rejected, eq_comm]

theorem opcodeAndAddress_short (h : t.chars.length < 2) :
    opcodeAndAddress settings t i j = .error (rejected t i (.shortWord t.text)) := by
  unfold opcodeAndAddress
  split
  · rfl
  · rfl
  · next hc => rw [hc, List.length_cons, List.length_cons] at h; omega

theorem opcodeAndAddress_nonDigit (h : 2 ≤ t.chars.length)
    (hn : ¬ Numeral.isNumeral t.chars = true) :
    opcodeAndAddress settings t i j = .error (rejected t i (.nonDigitWord t.text)) := by
  obtain ⟨c, d, ds, hc⟩ := exists_cons_cons_of_length h
  rw [hc] at hn
  simp [opcodeAndAddress, hc, hn]

/-- A word is refused as too short, as no numeral, or for an address beyond the machine. -/
theorem opcodeAndAddress_eq_link :
    opcodeAndAddress settings t i j = .error (.link e) ↔
      ∃ c, t.Faulty settings j c .instructionWord ∧ e = ⟨c, some t.location, i⟩ := by
  by_cases hlen : t.chars.length < 2
  · rw [opcodeAndAddress_short hlen, rejected_eq_link]
    simp [Token.Faulty, hlen, Nat.not_le.2 hlen]
  · have h₂ := Nat.not_lt.1 hlen
    by_cases hn : Numeral.isNumeral t.chars = true
    · obtain ⟨c, d, ds, hc⟩ := exists_cons_cons_of_length h₂
      have htail : d :: ds = t.chars.tail := by rw [hc]; rfl
      have hds := ((Numeral.isNumeral_cons (List.cons_ne_nil d ds)).1 (hc ▸ hn)).2
      rw [opcodeAndAddress_eq hc hn, htail]
      rw [htail] at hds
      simp only [Token.Faulty, hlen, h₂, hn, hds, Numeral.writes_iff, not_true_eq_false, false_and,
        and_false, false_or, true_and]
      split
      · next hl => simp only [Except.error.injEq, reduceCtorEq, Nat.not_le.2 hl, false_and,
          exists_false]
      · next hl =>
        split
        · next hmax =>
          rw [rejected_eq_link]
          constructor
          · rintro rfl
            exact ⟨_, ⟨_, ⟨Nat.not_lt.1 hl, rfl⟩, hmax, rfl⟩, rfl⟩
          · rintro ⟨_, ⟨_, ⟨-, rfl⟩, -, rfl⟩, rfl⟩
            rfl
        · next hmax =>
          refine iff_of_false (fun h => by cases h) ?_
          rintro ⟨_, ⟨_, ⟨-, rfl⟩, hmax', -⟩, -⟩
          exact hmax hmax'
    · rw [opcodeAndAddress_nonDigit h₂ hn, rejected_eq_link]
      simp [Token.Faulty, hlen, h₂, hn]

end Reading

/-! ### The token behind a partial program -/

namespace PartialProgram

open Reading

variable {p : PartialProgram settings} {ts : List Token}

theorem placed_of_ne (h : p.last ≠ .unopened) : p.placed = p.complete := by
  unfold placed
  split
  · next hp => exact absurd hp h
  · rfl

theorem length_placed_unopened (h : p.last = .unopened) :
    p.placed.length = p.complete.length - 1 := by
  rw [placed, h]
  exact List.length_dropLast

/-- **A token is refused** for what is wrong with it in the role it has; the module that is named is
the last one but those that have been placed. -/
theorem step_eq_link :
    p.reading.step settings t = .error (.link e) ↔
      ∃ c, t.Faulty settings p.last.module.length c p.last.role ∧
        e = ⟨c, some t.location, p.placed.length⟩ := by
  obtain ⟨ms, last⟩ := p
  cases last with
  | unopened =>
    rw [step_unopened, map_eq_error, number_eq_link]
    simp [PartialModule.role, Token.Faulty, placed]
  | definitions d =>
    by_cases hd : d.due = 0
    · rw [step_definitions_zero hd, map_eq_error, number_eq_link]
      simp [PartialModule.role, hd, Token.Faulty, placed]
    · rw [step_definitions_pos hd]
      simp [PartialModule.role, hd, Token.Faulty]
  | symbol d hd s =>
    rw [step_half_definition, map_eq_error, number_eq_link]
    simp [PartialModule.role, Token.Faulty, placed]
  | uses d u =>
    by_cases hu : u.due = 0
    · rw [step_uses_zero hu, map_eq_error, number_eq_link]
      simp [PartialModule.role, hu, Token.Faulty, placed]
    · rw [step_uses_pos hu]
      simp [PartialModule.role, hu, Token.Faulty]
  | instructions d u x hx =>
    rw [step_instructions, map_eq_error, classification_eq_link]
    simp [PartialModule.role, Token.Faulty, placed, and_assoc]
  | type d u x hx ty =>
    rw [step_half_instruction, map_eq_error, opcodeAndAddress_eq_link]
    simp [PartialModule.role, placed, PartialModule.module, Module.ofTexts, Module.length]

/-- A run fails with an error of the program at the first token that is refused. -/
theorem run_eq_link :
    run settings {} ts = .error (.link e) ↔
      ∃ (p : PartialProgram settings) (t : Token) (post : List Token) (c : Cause),
        ts = p.tokens ++ t :: post ∧ t.Faulty settings p.last.module.length c p.last.role ∧
          e = ⟨c, some t.location, p.placed.length⟩ := by
  rw [run, foldlM_eq_error]
  constructor
  · rintro ⟨pre, t, post, r, rfl, hpre, ht⟩
    obtain ⟨p, rfl, rfl⟩ := run_eq_ok_iff.1 hpre
    obtain ⟨c, hc, rfl⟩ := step_eq_link.1 ht
    exact ⟨p, t, post, c, rfl, hc, rfl⟩
  · rintro ⟨p, t, post, c, rfl, hc, rfl⟩
    exact ⟨p.tokens, t, post, p.reading, rfl, p.run_tokens, step_eq_link.2 ⟨c, hc, rfl⟩⟩

end PartialProgram

/-! ### Programs that are refused -/

namespace Store

open Reading

variable {ts : List Token}

theorem finish_eq_link {r : Reading} {last : Option Token} :
    r.finish last = .error (.link e) ↔
      r.state.remaining ≠ 0 ∧ Numeral.isWritable r.state.remaining = true ∧
        e = ⟨.endOfInput r.state.role r.state.remaining, last.map Token.location,
          r.store.count⟩ := by
  unfold Reading.finish
  split
  · next h => simp [h]
  · next h =>
    split
    · next hw => simp [h, hw, eq_comm]
    · next hw => simp [hw]

/-- **A program is refused** at a token, or at the end of the input. -/
theorem parse_eq_link :
    parse settings ts = .error (.link e) ↔
      (∃ (p : PartialProgram settings) (t : Token) (post : List Token) (c : Cause),
        ts = p.tokens ++ t :: post ∧ t.Faulty settings p.last.module.length c p.last.role ∧
          e = ⟨c, some t.location, p.placed.length⟩) ∨
        ∃ p : PartialProgram settings, p.tokens = ts ∧ p.last.state.remaining ≠ 0 ∧
          Numeral.isWritable p.last.state.remaining = true ∧
            e = ⟨.endOfInput p.last.state.role p.last.state.remaining,
              ts.getLast?.map Token.location, p.placed.length⟩ := by
  rw [parse, bind_eq_error, PartialProgram.run_eq_link]
  refine or_congr Iff.rfl ?_
  simp only [PartialProgram.run_eq_ok_iff, finish_eq_link]
  constructor
  · rintro ⟨_, ⟨p, hp, rfl⟩, h, hw, rfl⟩
    exact ⟨p, hp, h, hw, congrArg (LinkError.mk _ _ <| Int.ofNat ·) (ModuleText.count_store _)⟩
  · rintro ⟨p, hp, h, hw, rfl⟩
    exact ⟨_, ⟨p, hp, rfl⟩, h, hw,
      congrArg (LinkError.mk _ _ <| Int.ofNat ·) (ModuleText.count_store _).symm⟩

/-- **The module that an error names.**  An error at a token of a text names the module that the
token belongs to, unless the token is the count of definitions that would open the module; then it
names the module before, and the first one when there is none. -/
theorem parse_error_moduleIndex {source filename : String}
    (h : parse settings (Token.scan source filename) = .error (.link e))
    (hc : ∀ role missing, e.cause ≠ .endOfInput role missing) :
    ∃ pre t post, Token.scan source filename = pre ++ t :: post ∧ e.location = some t.location ∧
      (∃ p : PartialProgram settings, p.tokens = pre) ∧
        ∀ p : PartialProgram settings, p.tokens = pre →
          t.Faulty settings p.last.module.length e.cause p.last.role ∧
            (p.last ≠ .unopened → e.moduleIndex = p.moduleIndex) ∧
              (p.last = .unopened → e.moduleIndex = (p.moduleIndex - 1 : Nat)) := by
  rcases parse_eq_link.1 h with ⟨p, t, post, c, hts, hf, rfl⟩ | ⟨p, -, -, -, rfl⟩
  · refine ⟨p.tokens, t, post, hts, rfl, ⟨p, rfl⟩, fun q hq => ?_⟩
    -- partial programs of the same tokens are read to the same reading, so they refuse alike
    have hr : q.reading = p.reading := by
      have := q.run_tokens
      rw [hq, p.run_tokens] at this
      exact (Except.ok.inj this).symm
    have hstep := PartialProgram.step_eq_link.2 ⟨c, hf, rfl⟩
    rw [← hr] at hstep
    obtain ⟨c', hf', he⟩ := PartialProgram.step_eq_link.1 hstep
    obtain ⟨rfl, -, hi⟩ := LinkError.mk.injEq .. ▸ he
    refine ⟨hf', fun hq' => hi.trans ?_, fun hq' => hi.trans ?_⟩
    · rw [PartialProgram.placed_of_ne hq', PartialProgram.moduleIndex]
    · rw [PartialProgram.length_placed_unopened hq', PartialProgram.moduleIndex]
  · exact absurd rfl (hc _ _)

/-- At a word of the second module. -/
theorem parse_error_moduleIndex_secondModule :
    parse {} (Token.scan "0 0 0 0 0 1 R 9x" "<input>") =
        .error (.link ⟨.nonDigitWord "9x", some ⟨"<input>", 1, 15⟩, 1⟩) ∧
      ∃ p : PartialProgram {}, p.last.role = .instructionWord ∧ (1 : Int) = p.moduleIndex := by
  have hscan : Token.scan "0 0 0 0 0 1 R 9x" "<input>" =
      [⟨"0", 0, ⟨"<input>", 1, 1⟩⟩, ⟨"0", 1, ⟨"<input>", 1, 3⟩⟩, ⟨"0", 2, ⟨"<input>", 1, 5⟩⟩,
        ⟨"0", 3, ⟨"<input>", 1, 7⟩⟩, ⟨"0", 4, ⟨"<input>", 1, 9⟩⟩, ⟨"1", 5, ⟨"<input>", 1, 11⟩⟩,
        ⟨"R", 6, ⟨"<input>", 1, 13⟩⟩, ⟨"9x", 7, ⟨"<input>", 1, 15⟩⟩] := by cbv
  have h : parse {} (Token.scan "0 0 0 0 0 1 R 9x" "<input>") =
      .error (.link ⟨.nonDigitWord "9x", some ⟨"<input>", 1, 15⟩, 1⟩) := by rw [hscan]; rfl
  obtain ⟨pre, t, -, -, -, ⟨p, hp⟩, hall⟩ :=
    parse_error_moduleIndex h fun role missing hc => by cases hc
  obtain ⟨hf, hi, -⟩ := hall p hp
  have hrole : p.last.role = .instructionWord := by
    cases hr : p.last.role <;> rw [hr] at hf <;> simp [Token.Faulty] at hf
  exact ⟨h, p, hrole, hi (PartialModule.ne_unopened (by rw [hrole]; decide))⟩

/-- **An error may name another module** than that of its token: the count that should open the
second module is refused in the first. -/
theorem parse_error_module_before :
    ∃ (p : PartialProgram {}) (t : Token) (e : LinkError),
      Token.scan "0 0 0 X" "<input>" = p.tokens ++ [t] ∧
        parse {} (Token.scan "0 0 0 X" "<input>") = .error (.link e) ∧
          e.cause = .invalidCount t.text ∧ e.location = some t.location ∧
            e.moduleIndex = 0 ∧ p.moduleIndex = 1 := by
  have hzero : Numeral.Writes "0".toList 0 := by decide
  let zero (i : Nat) : NumberText := ⟨⟨"0", i, ⟨"<input>", 1, 2 * i + 1⟩⟩, 0, hzero⟩
  let empty : ModuleText {} := ⟨⟨zero 0, [], rfl⟩, ⟨zero 1, [], rfl⟩, ⟨zero 2, [], rfl⟩⟩
  have hscan : Token.scan "0 0 0 X" "<input>" =
      [⟨"0", 0, ⟨"<input>", 1, 1⟩⟩, ⟨"0", 1, ⟨"<input>", 1, 3⟩⟩, ⟨"0", 2, ⟨"<input>", 1, 5⟩⟩,
        ⟨"X", 3, ⟨"<input>", 1, 7⟩⟩] := by cbv
  rw [hscan]
  exact ⟨⟨[empty], .unopened⟩, ⟨"X", 3, ⟨"<input>", 1, 7⟩⟩,
    ⟨.invalidCount "X", some ⟨"<input>", 1, 7⟩, 0⟩, rfl, rfl, rfl, rfl, rfl, rfl⟩

end Store

end Linkage
