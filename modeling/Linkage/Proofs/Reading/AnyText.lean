import Linkage.Proofs.Failures
import Linkage.Proofs.Pass.Range
import Linkage.Proofs.Reading.Continuation

/-!
# Reading — tokens of any text

A scan gives tokens with a character at least.  A caller may supply tokens of any text, the empty
one included, and the digit limit bounds what can be read of them.

`Store.parse_cases` says how a reader of any tokens may fail: with an error of the program, that the
tokens are malformed or an address is beyond the machine; with a numeral error; or with the fault of
an instruction type without a character.  No numeral error is left where the texts are shorter than
the digit limit (`parse_ne_numeral`): a count that is read has fewer digits than the limit, so
twice the count can still be written (`run_remaining_lt`).

**The fault is reached at an empty type** (`Store.parse_short_texts`), and nowhere else.  An empty
token in the place of a word is an error that names the token.
-/

namespace Linkage

variable {settings : Settings} {t : Token} {ts : List Token} {f : Failure}

/-- The error says that the tokens do not follow the grammar. -/
def Cause.IsMalformed : Cause → Prop
  | .invalidCount _    => True
  | .invalidLocation _ => True
  | .invalidType _     => True
  | .shortWord _       => True
  | .nonDigitWord _    => True
  | .endOfInput _ _    => True
  | _                  => False

/-- A token is refused as malformed, or for an address beyond the machine. -/
theorem Token.Faulty.isMalformed_or {j : Nat} {c : Cause} {role : Role}
    (h : t.Faulty settings j c role) : c.IsMalformed ∨ c.IsOutOfRange := by
  cases role with
  | count => obtain ⟨-, rfl⟩ := h; exact .inl trivial
  | definitionSymbol => exact h.elim
  | definitionLocation => obtain ⟨-, rfl⟩ := h; exact .inl trivial
  | use => exact h.elim
  | instructionType => obtain ⟨-, -, rfl⟩ := h; exact .inl trivial
  | instructionWord =>
    rcases h with ⟨-, rfl⟩ | ⟨-, -, rfl⟩ | ⟨-, -, n, -, -, rfl⟩
    · exact .inl trivial
    · exact .inl trivial
    · exact .inr trivial

namespace Reading

variable {r r' : Reading} {i : Nat}

/-! ### Types without a character -/

theorem classification_of_nil (h : t.chars = []) :
    classification t i = .error (.fault .emptyType) := by
  rw [classification, h]

/-- A step fails with an error of the program, with a numeral error, or at an empty type. -/
theorem StepBy.error_cases {role : Role} {o : Except Failure Reading}
    (h : StepBy settings t i role o) (hf : o = .error f) :
    (∃ e, f = .link e) ∨ (∃ e, f = .numeral e) ∨
      f = .fault .emptyType ∧ role = .instructionType ∧ t.chars = [] := by
  cases h with
  | symbol r' => cases hf
  | use r' => cases hf
  | count next => exact (number_eq_error (map_eq_error.1 hf)).imp_right .inl
  | location next => exact (number_eq_error (map_eq_error.1 hf)).imp_right .inl
  | type next =>
    rcases classification_eq_error (map_eq_error.1 hf) with he | ⟨hc, hfault⟩
    · exact .inl he
    · exact .inr (.inr ⟨hfault, rfl, hc⟩)
  | word j next => exact (opcodeAndAddress_eq_error (map_eq_error.1 hf)).imp_right .inl

theorem StepBy.eq_emptyType {o : Except Failure Reading}
    (h : StepBy settings t i .instructionType o) (ht : t.chars = []) :
    o = .error (.fault .emptyType) := by
  cases h with
  | type next => rw [classification_of_nil ht]; rfl

theorem StepBy.eq_shortWord {o : Except Failure Reading}
    (h : StepBy settings t i .instructionWord o) (ht : t.chars = []) :
    o = .error (.link ⟨.shortWord t.text, some t.location, i⟩) := by
  have hshort : t.chars.length < 2 := by
    rw [ht]
    exact Nat.succ_pos 1
  cases h with
  | word j next => rw [opcodeAndAddress_short hshort]; rfl

/-- A token without a character stands where the type of an instruction is due. -/
def MeetsEmptyType (settings : Settings) (ts : List Token) : Prop :=
  ∃ pre t post r, ts = pre ++ t :: post ∧ run settings {} pre = .ok r ∧
    r.state.role = .instructionType ∧ t.text = ""

theorem chars_eq_nil_iff : t.chars = [] ↔ t.text = "" := String.toList_eq_nil_iff

theorem run_eq_emptyType :
    run settings {} ts = .error (.fault .emptyType) ↔ MeetsEmptyType settings ts := by
  rw [run, foldlM_eq_error]
  constructor
  · rintro ⟨pre, t, post, r, hts, hpre, ht⟩
    have hstep : StepBy settings t r.store.count r.state.role (r.step settings t) :=
      (regular_run .start hpre).stepBy
    rcases hstep.error_cases ht with ⟨e, he⟩ | ⟨e, he⟩ | ⟨-, hrole, hc⟩
    · cases he
    · cases he
    · exact ⟨pre, t, post, r, hts, hpre, hrole, chars_eq_nil_iff.1 hc⟩
  · rintro ⟨pre, t, post, r, hts, hpre, hrole, ht⟩
    have hstep : StepBy settings t r.store.count r.state.role (r.step settings t) :=
      (regular_run .start hpre).stepBy
    rw [hrole] at hstep
    exact ⟨pre, t, post, r, hts, hpre, hstep.eq_emptyType (chars_eq_nil_iff.2 ht)⟩

/-! ### Texts shorter than the digit limit -/

/-- All texts are shorter than the longest numeral that is read. -/
def ShortTexts (ts : List Token) : Prop := ∀ t ∈ ts, t.text.length < Numeral.digitLimit

instance (ts : List Token) : Decidable (ShortTexts ts) := inferInstanceAs (Decidable (∀ _ ∈ ts, _))

theorem not_overlong (h : t.text.length < Numeral.digitLimit) (role : Role) :
    ¬ t.Overlong role := by
  have hlen : t.chars.length < Numeral.digitLimit := h
  rintro ⟨-, hlong⟩
  cases role <;> simp only at hlong <;> omega

/-- A number of tokens is due that is less than twice any number of more digits than are read. -/
def Bounded (r : Reading) : Prop :=
  0 ≤ r.state.remaining ∧ r.state.remaining < (2 * Nat.pow 10 (Numeral.digitLimit - 1) : Nat)

theorem Bounded.step (hr : r.Bounded) (ht : t.text.length < Numeral.digitLimit)
    (h : r.step settings t = .ok r') : r'.Bounded := by
  obtain ⟨hr₀, hrlt⟩ := hr
  by_cases hz : r.state.remaining = 0
  · rw [step_count hz, map_eq_ok] at h
    obtain ⟨n, hn, hr'⟩ := h
    have hwrites := number_eq_ok.1 hn
    have hstate : r'.state = .due r.state.part n := by
      split at hr'
      · next hp => rw [← hr', hp]
      · rw [← hr']
    have hlen : t.chars.length ≤ Numeral.digitLimit - 1 := Nat.le_pred_of_lt ht
    have hlt : n < Nat.pow 10 (Numeral.digitLimit - 1) := hwrites.lt_pow hlen
    have hitems : n * r.state.part.tokensPerItem ≤ n * 2 :=
      Nat.mul_le_mul_left n (by cases r.state.part <;> decide)
    rw [Bounded, hstate, State.remaining_due]
    generalize Numeral.digitLimit - 1 = k at hlt
    generalize Nat.pow 10 k = bound at hlt
    omega
  · have hremaining := step_remaining hz h
    unfold Bounded
    omega

theorem bounded_run (hts : ShortTexts ts) (h : run settings {} ts = .ok r) : r.Bounded := by
  have hstart : Bounded {} := by
    refine ⟨Int.le_refl 0, Int.natCast_pos.2 ?_⟩
    generalize Numeral.digitLimit - 1 = k
    exact Nat.mul_pos (Nat.succ_pos 1) (Nat.pow_pos (Nat.succ_pos 9))
  exact foldlM_preserves (fun _ t _ ht hr h => hr.step (hts t ht) h) hstart h

/-- The number of tokens that are due can be written. -/
theorem Bounded.isWritable (h : r.Bounded) : Numeral.isWritable r.state.remaining = true := by
  obtain ⟨h₀, hlt⟩ := h
  have hlimit : Numeral.digitLimit = (Numeral.digitLimit - 1) + 1 := rfl
  unfold Numeral.isWritable
  rw [hlimit]
  generalize Numeral.digitLimit - 1 = k at hlt ⊢
  rw [Nat.pow_eq] at hlt
  rw [decide_eq_true_iff, Nat.pow_eq, Nat.pow_succ]
  omega

end Reading

/-! ### Programs of any tokens -/

namespace Store

open Reading

variable {s : Store}

/-- An error of a reader says that the tokens are malformed or that an address is beyond the
machine. -/
theorem isMalformed_or_of_parse {e : LinkError} (h : parse settings ts = .error (.link e)) :
    e.cause.IsMalformed ∨ e.cause.IsOutOfRange := by
  rcases parse_eq_link.1 h with ⟨p, t, post, c, -, hf, rfl⟩ | ⟨p, -, -, -, rfl⟩
  · exact hf.isMalformed_or
  · exact .inl trivial

/-- A reader fails with the fault of an empty type exactly where it meets one. -/
theorem parse_eq_emptyType :
    parse settings ts = .error (.fault .emptyType) ↔ MeetsEmptyType settings ts := by
  rw [parse, bind_eq_error, ← run_eq_emptyType]
  refine or_iff_left ?_
  rintro ⟨r, -, h⟩
  rcases finish_eq_error h with ⟨e, he⟩ | ⟨e, he⟩
  · cases he
  · cases he

/-- Reading gives a store, or fails with an error of the program, with a numeral error, or at an
empty type. -/
theorem parse_cases (settings : Settings) (ts : List Token) :
    (∃ s, parse settings ts = .ok s) ∨ (∃ e, parse settings ts = .error (.link e)) ∨
      (∃ e, parse settings ts = .error (.numeral e)) ∨
        parse settings ts = .error (.fault .emptyType) := by
  cases h : parse settings ts with
  | ok s => exact .inl ⟨s, rfl⟩
  | error f =>
    have hf : (∃ e, f = .link e) ∨ (∃ e, f = .numeral e) ∨ f = .fault .emptyType := by
      rcases bind_eq_error.1 h with hrun | ⟨r, -, hfin⟩
      · obtain ⟨pre, t, post, r, -, hpre, ht⟩ := foldlM_eq_error.1 hrun
        exact ((regular_run .start hpre).stepBy.error_cases ht).imp_right (.imp_right And.left)
      · exact (finish_eq_error hfin).imp_right .inl
    rcases hf with ⟨e, rfl⟩ | ⟨e, rfl⟩ | rfl
    · exact .inr (.inl ⟨e, rfl⟩)
    · exact .inr (.inr (.inl ⟨e, rfl⟩))
    · exact .inr (.inr (.inr rfl))

/-- Where the texts are short no number exceeds the digit limit. -/
theorem parse_ne_numeral (hts : ShortTexts ts) (e : NumeralError) :
    parse settings ts ≠ .error (.numeral e) := by
  intro h
  rcases bind_eq_error.1 h with hrun | ⟨r, hrun, hfin⟩
  · obtain ⟨pre, t, post, r, rfl, -, ht⟩ := (run_eq_numeral .start).1 ⟨e, hrun⟩
    exact not_overlong (hts t List.mem_append_cons_self) _ ht
  · have hlarge := finish_eq_numeral.1 ⟨e, hfin⟩
    rw [(bounded_run hts hrun).isWritable] at hlarge
    cases hlarge

/-- **Short texts of any kind.**  Reading tokens whose texts are shorter than the digit limit gives
a store, or an error that the tokens are malformed or an address is beyond the machine, unless it
meets an empty token where the type of an instruction is due; there it fails with a fault.  An empty
token where a word is due is an error that names the token. -/
theorem parse_short_texts (hts : ShortTexts ts) :
    (((∃ s, parse settings ts = .ok s) ∨ ∃ e, parse settings ts = .error (.link e) ∧
        (e.cause.IsMalformed ∨ e.cause.IsOutOfRange)) ↔ ¬ MeetsEmptyType settings ts) ∧
      (parse settings ts = .error (.fault .emptyType) ↔ MeetsEmptyType settings ts) ∧
      ∀ (pre : List Token) t post r, ts = pre ++ t :: post → run settings {} pre = .ok r →
        r.state.role = .instructionWord → t.text = "" →
          parse settings ts =
            .error (.link ⟨.shortWord t.text, some t.location, r.store.count⟩) := by
  refine ⟨⟨?_, fun hne => ?_⟩, parse_eq_emptyType, ?_⟩
  · rintro (⟨s, hs⟩ | ⟨e, he, -⟩) hmeets
    · cases hs.symm.trans (parse_eq_emptyType.2 hmeets)
    · cases he.symm.trans (parse_eq_emptyType.2 hmeets)
  · rcases parse_cases settings ts with hs | ⟨e, he⟩ | ⟨e, he⟩ | hfault
    · exact .inl hs
    · exact .inr ⟨e, he, isMalformed_or_of_parse he⟩
    · exact absurd he (parse_ne_numeral hts e)
    · exact absurd (parse_eq_emptyType.1 hfault) hne
  · intro pre t post r hts hpre hrole ht
    have hstep : StepBy settings t r.store.count r.state.role (r.step settings t) :=
      (regular_run .start hpre).stepBy
    rw [hrole] at hstep
    refine bind_eq_error.2 (.inl (foldlM_eq_error.2 ⟨pre, t, post, r, hts, hpre, ?_⟩))
    exact hstep.eq_shortWord (chars_eq_nil_iff.2 ht)

/-- An instruction whose type is an empty token. -/
def withoutType : List Token := Token.inLine ["0", "0", "1", "", "1000"]

theorem shortTexts_withoutType : ShortTexts withoutType := by decide

/-- The type is met, and the fault is that of an empty type. -/
theorem parse_short_texts_withoutType :
    ShortTexts withoutType ∧ MeetsEmptyType {} withoutType ∧
      parse {} withoutType = .error (.fault .emptyType) := by
  have hfault : parse {} withoutType = .error (.fault .emptyType) := by rfl
  exact ⟨shortTexts_withoutType,
    (parse_short_texts shortTexts_withoutType).2.1.1 hfault, hfault⟩

/-- **Reading may fail with a fault**, where the type of an instruction is an empty token. -/
theorem parse_withoutType_neither :
    ShortTexts withoutType ∧ ¬ ((∃ s, parse {} withoutType = .ok s) ∨
      ∃ e, parse {} withoutType = .error (.link e) ∧
        (e.cause.IsMalformed ∨ e.cause.IsOutOfRange)) := by
  have hfault : parse {} withoutType = .error (.fault .emptyType) := by rfl
  refine ⟨shortTexts_withoutType, ?_⟩
  rintro (⟨s, hs⟩ | ⟨e, he, -⟩)
  · cases hs.symm.trans hfault
  · cases he.symm.trans hfault

end Store

end Linkage
