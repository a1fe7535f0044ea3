import Linkage.Proofs.Lines
import Linkage.Proofs.Reading.Refusal

/-!
# Reading — how a program goes on behind tokens that have been read

Between two modules a reader holds nothing but the module it has still to place.  The tokens that
end there are those of modules with all their sections (`endsAtBoundary_iff`), and a program behind
them is read as if it stood alone: `parse_concatenation` gives the modules of the whole.

Within a section a reader counts the tokens that are due.  Each token that is accepted lowers that
number by one, whatever the token is (`step_remaining`, `run_remaining`), so with fewer tokens the
section is not ended.  And the reader is never stuck: for each role there is a word that it accepts
(`Role.word`, `StepBy.exists_ok`), so a reading goes on for as many tokens as one likes
(`Regular.exists_run`).  Both together say that the number of missing tokens in an error at the end
of the input is exact (`parse_missing_exact`).
-/

namespace Linkage

open Reading

variable {settings : Settings} {ts us A B : List Token}

/-! ### Behind a boundary -/

theorem Reading.State.eq_zero_of_remaining_due {part : Section} {k : Nat}
    (h : (due part k).remaining = 0) : k = 0 := by
  cases k with
  | zero => rfl
  | succ k => exact absurd h (remaining_due_succ_ne_zero part k)

/-- Only before a module of which nothing has been written is a count of definitions due. -/
theorem PartialModule.eq_unopened_of_state {l : PartialModule settings}
    (hp : l.state.part = .definitions) (hr : l.state.remaining = 0) : l = .unopened := by
  cases l with
  | unopened => rfl
  | definitions d =>
    rw [state, State.eq_zero_of_remaining_due hr, State.due_zero] at hp
    cases hp
  | symbol d hd t => exact absurd hr (State.remaining_half_ne_zero _ _ t)
  | uses d u =>
    rw [state, State.eq_zero_of_remaining_due hr, State.due_zero] at hp
    cases hp
  | instructions d u x hx => exact absurd (State.eq_zero_of_remaining_due hr) hx
  | type d u x hx t => exact absurd hr (State.remaining_half_ne_zero _ _ t.token)

namespace Reading

/-- **The tokens that end at a boundary** are those of modules with all their sections. -/
theorem endsAtBoundary_iff :
    EndsAtBoundary settings ts ↔
      ∃ ms : List (ModuleText settings), ts = ms.flatMap ModuleText.tokens := by
  constructor
  · rintro ⟨r, hr, hpart, hrole⟩
    obtain ⟨⟨ms, last⟩, rfl, rfl⟩ := PartialProgram.run_eq_ok_iff.1 hr
    obtain rfl : last = .unopened :=
      PartialModule.eq_unopened_of_state hpart (State.role_eq_count.1 hrole)
    exact ⟨ms, List.append_nil _⟩
  · rintro ⟨ms, rfl⟩
    let p : PartialProgram settings := ⟨ms, .unopened⟩
    have hp : p.tokens = ms.flatMap ModuleText.tokens := List.append_nil _
    exact ⟨p.reading, hp ▸ p.run_tokens, rfl, rfl⟩

end Reading

/-- **Reading distributes over concatenation.**  Tokens are accepted and end where a count of
definitions is awaited.  What follows them is accepted behind them just when it is accepted alone,
and then the program has their modules, and behind those the modules of what follows; of these the
indices are greater by the number of modules before them and the starts by the number of words
before them, and nothing else is different. -/
theorem Store.parse_concatenation {sA : Store} (hA : parse settings A = .ok sA)
    (hb : EndsAtBoundary settings A) :
    ((∃ s, parse settings (A ++ B) = .ok s) ↔ ∃ sB, parse settings B = .ok sB) ∧
      ∀ s sB, parse settings (A ++ B) = .ok s → parse settings B = .ok sB →
        s.modules = sA.modules ++ sB.modules.map fun m =>
          { m with index := m.index + sA.count, start := m.start + sA.totalLength } := by
  refine ⟨⟨?_, ?_⟩, ?_⟩
  · rintro ⟨s, hs⟩
    obtain ⟨sB, hB, -⟩ := (parse_append hA hb).1 hs
    exact ⟨sB, hB⟩
  · rintro ⟨sB, hB⟩
    exact ⟨_, (parse_append hA hb).2 ⟨sB, hB, rfl⟩⟩
  · intro s sB hs hB
    obtain ⟨sB', hB', rfl⟩ := (parse_append hA hb).1 hs
    obtain rfl : sB' = sB := Except.ok.inj (hB'.symm.trans hB)
    rw [modules_followedBy, totalLength_eq_wordCount]
    rfl

/-- A module that uses the symbol of the one before it. -/
theorem Store.parse_concatenation_use :
    let A : List Token :=
      [⟨"1", 0, ⟨"-", 1, 1⟩⟩, ⟨"a", 1, ⟨"-", 1, 3⟩⟩, ⟨"0", 2, ⟨"-", 1, 5⟩⟩,
        ⟨"0", 3, ⟨"-", 1, 7⟩⟩, ⟨"1", 4, ⟨"-", 1, 9⟩⟩, ⟨"I", 5, ⟨"-", 1, 11⟩⟩,
        ⟨"1000", 6, ⟨"-", 1, 13⟩⟩]
    let B : List Token :=
      [⟨"0", 7, ⟨"-", 2, 1⟩⟩, ⟨"1", 8, ⟨"-", 2, 3⟩⟩, ⟨"a", 9, ⟨"-", 2, 5⟩⟩,
        ⟨"1", 10, ⟨"-", 2, 7⟩⟩, ⟨"E", 11, ⟨"-", 2, 9⟩⟩, ⟨"2000", 12, ⟨"-", 2, 11⟩⟩]
    EndsAtBoundary {} A ∧ ∃ sA sB s, parse {} A = .ok sA ∧ parse {} B = .ok sB ∧
      parse {} (A ++ B) = .ok s ∧ s.modules = sA.modules ++ sB.modules.map fun m =>
        { m with index := m.index + 1, start := m.start + 1 } := by
  intro A B
  have hb : EndsAtBoundary {} A := ⟨_, rfl, rfl, rfl⟩
  have hA : ∃ sA, parse {} A = .ok sA ∧ sA.count = 1 ∧ sA.totalLength = 1 := ⟨_, rfl, rfl, rfl⟩
  have hB : ∃ sB, parse {} B = .ok sB := ⟨_, rfl⟩
  obtain ⟨sA, hA, hcount, hlength⟩ := hA
  obtain ⟨sB, hB⟩ := hB
  obtain ⟨hiff, hmodules⟩ := parse_concatenation hA hb
  obtain ⟨s, hs⟩ := hiff.2 ⟨sB, hB⟩
  have hm := hmodules s sB hs hB
  rw [hcount, hlength] at hm
  exact ⟨hb, sA, sB, s, hA, hB, hs, hm⟩

/-! ### Tokens that are due -/

namespace Reading

variable {r r' : Reading} {t : Token} {s : Store}

theorem State.remaining_consumed (st : State) (pending : Option Token) :
    (st.consumed pending).remaining = st.remaining - 1 := by
  unfold State.consumed
  split
  · next h => rw [h]; rfl
  · rfl

theorem run_cons {u : Token} : run settings r (u :: us) = .ok r' ↔
    ∃ r₁, r.step settings u = .ok r₁ ∧ run settings r₁ us = .ok r' := by
  rw [run, List.foldlM_cons, bind_eq_ok]
  rfl

/-- **A token that is accepted within a section** lowers the number of tokens due by one. -/
theorem step_remaining (hr : r.state.remaining ≠ 0) (h : r.step settings t = .ok r') :
    r'.state.remaining = r.state.remaining - 1 := by
  have hrole : r.state.role ≠ .count := fun hc => hr (State.role_eq_count.1 hc)
  unfold step at h
  split at h
  · next hc => exact absurd hc hrole
  · cases h
    exact State.remaining_consumed _ _
  · obtain ⟨n, -, h⟩ := bind_eq_ok.1 h
    cases h
    exact State.remaining_consumed _ _
  · cases h
    exact State.remaining_consumed _ _
  · obtain ⟨kind, -, h⟩ := bind_eq_ok.1 h
    cases h
    exact State.remaining_consumed _ _
  · obtain ⟨kind, -, h⟩ := bind_eq_ok.1 h
    obtain ⟨w, -, h⟩ := bind_eq_ok.1 h
    cases h
    exact State.remaining_consumed _ _

/-- As many tokens as are due, or fewer, lower the number of tokens due by their own. -/
theorem run_remaining (hle : (us.length : Int) ≤ r.state.remaining)
    (h : run settings r us = .ok r') : r'.state.remaining = r.state.remaining - us.length := by
  induction us generalizing r with
  | nil =>
    cases h
    exact (Int.sub_zero _).symm
  | cons u us ih =>
    rw [List.length_cons, Int.natCast_succ] at hle
    obtain ⟨r₁, h₁, h⟩ := run_cons.1 h
    have hstep := step_remaining (by omega) h₁
    rw [ih (by omega) h, hstep, List.length_cons, Int.natCast_succ]
    omega

/-- With fewer tokens than are due the section is not ended. -/
theorem storeAfter_of_length_lt (h : (us.length : Int) < r.state.remaining) :
    storeAfter settings r us = none := by
  unfold storeAfter
  cases hrun : run settings r us with
  | error e => rfl
  | ok r' =>
    have hremaining := run_remaining (Int.le_of_lt h) hrun
    exact if_neg (by omega)

end Reading

/-! ### A token for every role -/

/-- A word that is accepted in the role. -/
def Role.word : Role → String
  | .count              => "0"
  | .definitionSymbol   => "x"
  | .definitionLocation => "0"
  | .use                => "x"
  | .instructionType    => "I"
  | .instructionWord    => "00"

/-- A token that is accepted in the role; where it stands does not matter. -/
def Role.token (role : Role) : Token := ⟨role.word, 0, ⟨"", 1, 1⟩⟩

theorem Role.text_token_ne_empty (role : Role) : role.token.text ≠ "" := by
  cases role <;> decide

theorem Numeral.writes_zero : Writes ['0'] 0 := by decide

/-- Address zero is one of every machine. -/
theorem Settings.IsValid.writesWord_zero (hv : settings.IsValid) :
    WritesWord settings ['0', '0'] 0 0 := by
  have hmax : (0 : Int) ≤ settings.maxAddress := Int.sub_nonneg.2 hv.2.1
  exact ⟨'0', ['0'], rfl, by decide, rfl, Numeral.writes_zero, hmax⟩

namespace Reading

variable {r : Reading}

/-- In every role a step accepts the token of the role. -/
theorem StepBy.exists_ok (hv : settings.IsValid) {role : Role} {i : Nat}
    {x : Except Failure Reading} (h : StepBy settings role.token i role x) : ∃ r', x = .ok r' := by
  cases h with
  | count next =>
    exact ⟨next 0, map_eq_ok.2 ⟨0, number_eq_ok.2 Numeral.writes_zero, rfl⟩⟩
  | symbol r' => exact ⟨r', rfl⟩
  | location next =>
    exact ⟨next 0, map_eq_ok.2 ⟨0, number_eq_ok.2 Numeral.writes_zero, rfl⟩⟩
  | use r' => exact ⟨r', rfl⟩
  | type next =>
    have hbegins : Classification.immediate.Begins Role.instructionType.token.chars := rfl
    exact ⟨next .immediate, map_eq_ok.2 ⟨_, classification_eq_ok.2 hbegins, rfl⟩⟩
  | word j next =>
    exact ⟨next (0, 0), map_eq_ok.2 ⟨_, opcodeAndAddress_eq_ok.2 hv.writesWord_zero, rfl⟩⟩

/-- **A reader is never stuck**: behind every reading some tokens are accepted, as many as one
likes. -/
theorem Regular.exists_run (hv : settings.IsValid) (hr : r.Regular) (n : Nat) :
    ∃ us r', us.length = n ∧ (∀ u ∈ us, u.text ≠ "") ∧ run settings r us = .ok r' := by
  induction n generalizing r with
  | zero => exact ⟨[], r, rfl, fun _ hu => absurd hu List.not_mem_nil, rfl⟩
  | succ n ih =>
    have hstep : StepBy settings r.state.role.token r.store.count r.state.role
        (r.step settings r.state.role.token) := hr.stepBy
    obtain ⟨r₁, h₁⟩ := hstep.exists_ok hv
    obtain ⟨us, r', rfl, hus, hrun⟩ := ih (hr.step h₁)
    refine ⟨r.state.role.token :: us, r', rfl, ?_, ?_⟩
    · exact List.forall_mem_cons.2 ⟨Role.text_token_ne_empty _, hus⟩
    · exact run_cons.2 ⟨r₁, h₁, hrun⟩

/-- With as many tokens as are due the section can be ended. -/
theorem Regular.exists_storeAfter (hv : settings.IsValid) (hr : r.Regular) {n : Nat}
    (h : r.state.remaining = n) :
    ∃ us s, us.length = n ∧ (∀ u ∈ us, u.text ≠ "") ∧ storeAfter settings r us = some s := by
  obtain ⟨us, r', rfl, hus, hrun⟩ := hr.exists_run hv n
  have hremaining : r'.state.remaining = 0 := by
    rw [run_remaining (Int.le_of_eq h.symm) hrun, h, Int.sub_self]
  refine ⟨us, r'.finished, rfl, hus, ?_⟩
  rw [← List.append_nil us, storeAfter_append hrun, storeAfter_nil hremaining]

end Reading

/-! ### The end of the input -/

/-- A fault of a token is not the end of the input. -/
theorem Token.Faulty.ne_endOfInput {t : Token} {j : Nat} {c : Cause} {role : Role}
    (h : t.Faulty settings j c role) (role' : Role) (missing : Int) :
    c ≠ .endOfInput role' missing := by
  rintro rfl
  cases role <;> simp [Token.Faulty] at h

namespace Store

variable {e : LinkError} {role : Role} {missing : Int}

/-- At the end of the input as many tokens are missing as the reader expects. -/
theorem exists_reading_of_endOfInput (h : parse settings ts = .error (.link e))
    (hc : e.cause = .endOfInput role missing) :
    ∃ r, run settings {} ts = .ok r ∧ r.Regular ∧ r.state.remaining = missing := by
  rcases parse_eq_link.1 h with ⟨p, t, post, c, -, hf, rfl⟩ | ⟨p, rfl, -, -, rfl⟩
  · exact absurd hc (hf.ne_endOfInput role missing)
  · exact ⟨p.reading, p.run_tokens, regular_run .start p.run_tokens, (Cause.endOfInput.inj hc).2⟩

/-- The hint at the end of the input tells the number of missing tokens. -/
theorem missing_eq_of_hint {N : Nat} (hc : e.cause = .endOfInput role missing)
    (hhint : e.diagnostic.hint = some s!"{N} more token(s) expected") : missing = N := by
  obtain ⟨_, location, i⟩ := e
  obtain rfl := hc
  have htext : toString missing ++ " more token(s) expected" =
      toString (N : Int) ++ " more token(s) expected" := Option.some.inj hhint
  exact toString_inj ((String.append_left_inj _).1 htext)

/-- **The number of missing tokens is exact.**  Tokens are read and the input ends too early, with
the hint that `N` more tokens are expected.  With fewer tokens behind them they are not accepted,
whatever those tokens are, and with some `N` tokens they are. -/
theorem parse_missing_exact (hv : settings.IsValid) {N : Nat}
    (h : parse settings ts = .error (.link e)) (hc : e.cause = .endOfInput role missing)
    (hhint : e.diagnostic.hint = some s!"{N} more token(s) expected") :
    (∀ us : List Token, us.length < N → ∀ s, parse settings (ts ++ us) ≠ .ok s) ∧
      ∃ us : List Token, us.length = N ∧ (∀ u ∈ us, u.text ≠ "") ∧
        ∃ s, parse settings (ts ++ us) = .ok s := by
  obtain rfl := missing_eq_of_hint hc hhint
  obtain ⟨r, hrun, hreg, hr⟩ := exists_reading_of_endOfInput h hc
  have hafter (us : List Token) (s : Store) :
      parse settings (ts ++ us) = .ok s ↔ storeAfter settings r us = some s := by
    rw [parse_eq_ok, storeAfter_append hrun]
  constructor
  · intro us hlt s hs
    have hnone : storeAfter settings r us = none :=
      storeAfter_of_length_lt (hr ▸ Int.ofNat_lt.2 hlt)
    rw [(hafter us s).1 hs] at hnone
    cases hnone
  · obtain ⟨us, s, hlen, hus, hs⟩ := hreg.exists_storeAfter hv hr
    exact ⟨us, hlen, hus, s, (hafter us s).2 hs⟩

/-- Within the first of two definitions. -/
theorem parse_missing_exact_firstDefinition :
    parse {} (Token.scan "2 a" "<input>") = .error
        (.link ⟨.endOfInput .definitionLocation 3, some ⟨"<input>", 1, 3⟩, 0⟩) ∧
      ∃ us : List Token, us.length = 3 ∧
        ∃ s, parse {} (Token.scan "2 a" "<input>" ++ us) = .ok s := by
  have hscan : Token.scan "2 a" "<input>" =
      [⟨"2", 0, ⟨"<input>", 1, 1⟩⟩, ⟨"a", 1, ⟨"<input>", 1, 3⟩⟩] := by cbv
  have hwritable : Numeral.isWritable 3 = true := by decide +kernel
  have h : parse {} (Token.scan "2 a" "<input>") = .error
      (.link ⟨.endOfInput .definitionLocation 3, some ⟨"<input>", 1, 3⟩, 0⟩) := by
    rw [hscan, parse, bind_eq_error]
    exact .inr ⟨_, rfl, finish_eq_link.2 ⟨by decide, hwritable, rfl⟩⟩
  obtain ⟨-, us, hlen, -, hs⟩ := parse_missing_exact (N := 3) (by decide) h rfl rfl
  exact ⟨h, us, hlen, hs⟩

end Store

end Linkage
