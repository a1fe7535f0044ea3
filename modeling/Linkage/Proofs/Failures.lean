import Linkage.Proofs.Pass.Faults
import Linkage.Proofs.Scanning

/-!
# Linking — how a link may fail

A link of a program text under valid settings gives a result, or fails with an error of the program,
or fails with a numeral error (`link_cases`); no fault, no misuse and no other failure is
reached.  Numeral errors are what is left of the digit limit: a number that cannot be read, or one
that a message would have to show and cannot be written.  `ExceedsDigitLimit` lists the three places
where that happens:

* a token that is to be read as a number has too many digits (`Token.Overlong`),
* the input ends where a number of tokens is due that is too large to be written,
* the first definition that cannot be entered has an address too large to be written.

`link_eq_numeral` says that these are all of them, and `linkText_failures` that exactly there a link
neither succeeds nor fails with an error of the program.
-/

namespace Linkage

/-! ### Reading -/

/-- The token is a numeral, and has more digits than are read in the role. -/
def Token.Overlong (t : Token) (role : Role) : Prop :=
  Numeral.isNumeral t.chars = true ∧
    match role with
    | .count              => Numeral.digitLimit < t.chars.length
    | .definitionLocation => Numeral.digitLimit < t.chars.length
    | .instructionWord    => Numeral.digitLimit + 1 < t.chars.length
    | _                   => False

namespace Reading

variable {settings : Settings} {r : Reading} {t : Token} {ts : List Token} {f : Failure}
  {last : Option Token}

/-- A step fails with a numeral error on the tokens that are too long for their role. -/
theorem StepBy.eq_numeral {i : Nat} {role : Role} {o : Except Failure Reading}
    (h : StepBy settings t i role o) : (∃ e, o = .error (.numeral e)) ↔ t.Overlong role := by
  cases h with
  | symbol r' => exact iff_of_false nofun (fun h => h.2)
  | use r' => exact iff_of_false nofun (fun h => h.2)
  | type next =>
    refine iff_of_false (fun ⟨e, he⟩ => ?_) (fun h => h.2)
    rcases classification_eq_error (map_eq_error.1 he) with ⟨e', he'⟩ | ⟨-, he'⟩
    · cases he'
    · cases he'
  | count next => simp only [map_eq_error, number_eq_numeral, Token.Overlong, exists_and_left,
      exists_eq, and_true]
  | location next => simp only [map_eq_error, number_eq_numeral, Token.Overlong, exists_and_left,
      exists_eq, and_true]
  | word j next => simp only [map_eq_error, opcodeAndAddress_eq_numeral, Token.Overlong,
      exists_and_left, exists_eq, and_true]

/-- A step on a token with a character fails with an error of the program or a numeral error. -/
theorem StepBy.eq_error {i : Nat} {role : Role} {o : Except Failure Reading}
    (h : StepBy settings t i role o) (ht : t.chars ≠ []) (hf : o = .error f) :
    (∃ e, f = .link e) ∨ ∃ e, f = .numeral e := by
  cases h with
  | symbol r' => cases hf
  | use r' => cases hf
  | count next => exact number_eq_error (map_eq_error.1 hf)
  | location next => exact number_eq_error (map_eq_error.1 hf)
  | type next =>
    rcases classification_eq_error (map_eq_error.1 hf) with he | ⟨hc, -⟩
    · exact .inl he
    · exact absurd hc ht
  | word j next => exact opcodeAndAddress_eq_error (map_eq_error.1 hf)

theorem run_eq_numeral (hr : r.Regular) :
    (∃ e, run settings r ts = .error (.numeral e)) ↔
      ∃ pre t post r', ts = pre ++ t :: post ∧ run settings r pre = .ok r' ∧
        t.Overlong r'.state.role := by
  simp only [run, foldlM_eq_error]
  constructor
  · rintro ⟨e, pre, t, post, r', hts, hpre, ht⟩
    exact ⟨pre, t, post, r', hts, hpre, (regular_run hr hpre).stepBy.eq_numeral.1 ⟨e, ht⟩⟩
  · rintro ⟨pre, t, post, r', hts, hpre, ht⟩
    obtain ⟨e, he⟩ := (regular_run hr hpre).stepBy.eq_numeral.2 ht
    exact ⟨e, pre, t, post, r', hts, hpre, he⟩

theorem run_eq_error (hr : r.Regular) (hts : ∀ t ∈ ts, t.chars ≠ [])
    (h : run settings r ts = .error f) : (∃ e, f = .link e) ∨ ∃ e, f = .numeral e := by
  obtain ⟨pre, t, post, r', rfl, hpre, ht⟩ := foldlM_eq_error.1 h
  exact (regular_run hr hpre).stepBy.eq_error (hts t List.mem_append_cons_self) ht

theorem isWritable_zero : Numeral.isWritable 0 = true := by
  unfold Numeral.isWritable
  generalize Numeral.digitLimit = limit
  exact decide_eq_true (Nat.pow_pos (Nat.succ_pos 9))

theorem finish_eq_numeral :
    (∃ e, r.finish last = .error (.numeral e)) ↔ Numeral.isWritable r.state.remaining = false := by
  unfold finish
  split
  · next h => rw [h, isWritable_zero]; exact iff_of_false nofun nofun
  · split
    · next hw => rw [hw]; exact iff_of_false nofun nofun
    · next hw => exact iff_of_true ⟨_, rfl⟩ (Bool.not_eq_true _ ▸ hw)

theorem finish_eq_error (h : r.finish last = .error f) :
    (∃ e, f = .link e) ∨ ∃ e, f = .numeral e := by
  unfold finish at h
  split at h
  · cases h
  · split at h
    · cases h; exact .inl ⟨_, rfl⟩
    · cases h; exact .inr ⟨_, rfl⟩

end Reading

/-! ### Linking -/

/-- The places where a number beyond the digit limit is to be read or to be written. -/
inductive ExceedsDigitLimit (settings : Settings) (tokens : List Token) : Prop where
  /-- A token is too long for the role it has. -/
  | token (pre : List Token) (t : Token) (post : List Token) (r : Reading)
      (split : tokens = pre ++ t :: post) (reached : Reading.run settings {} pre = .ok r)
      (long : t.Overlong r.state.role)
  /-- At the end of the input a number of tokens is due that is too large to be written. -/
  | ending (r : Reading) (reached : Reading.run settings {} tokens = .ok r)
      (large : Numeral.isWritable r.state.remaining = false)
  /-- Of a program that is accepted, the first definition that cannot be entered is at an address
  beyond the machine that is too large to be written. -/
  | address (s : Store) (pre : List (Module × Definition)) (m : Module) (d : Definition)
      (post : List (Module × Definition)) (e : Entry) (parsed : Store.parse settings tokens = .ok s)
      (split : s.definitionSites = pre ++ (m, d) :: post)
      (entered : ∀ site ∈ pre, site.2.InMachine settings site.1)
      (distinct : settings.policy = .known .error → ((entriesAt pre).map Entry.name).Nodup)
      (entry : d.entryIn? m = some e) (beyond : settings.maxAddress < e.address)
      (large : Numeral.isWritable e.address = false)

variable {settings : Settings} {tokens : List Token} {s : Store} {f : Failure}

/-- **Three places**: a link fails with a numeral error exactly where the digit limit is
exceeded. -/
theorem link_eq_numeral (hv : settings.IsValid) :
    (∃ e, (link settings tokens).result = .error (.numeral e)) ↔
      ExceedsDigitLimit settings tokens := by
  constructor
  · rintro ⟨e, h⟩
    rcases (link_eq_error hv).1 h with hp | ⟨s, hp, hf | ⟨t, ht, hf⟩⟩
    · rcases bind_eq_error.1 hp with hrun | ⟨r, hrun, hfin⟩
      · obtain ⟨pre, t, post, r, hts, hpre, ht⟩ := (Reading.run_eq_numeral .start).1 ⟨e, hrun⟩
        exact .token pre t post r hts hpre ht
      · exact .ending r hrun (Reading.finish_eq_numeral.1 ⟨e, hfin⟩)
    · obtain ⟨pre, m, d, post, e₀, hs, hin, hdis, he, hmax, hw⟩ :=
        (firstPass_eq_numeral hv.1).1 ⟨e, hf⟩
      exact .address s pre m d post e₀ hp hs hin hdis he hmax hw
    · obtain ⟨_, _, _, -, hfault, -⟩ :=
        (secondPass_eq_error_iff hv.1 (Store.asRead_of_parse hp) ht).1 hf
      obtain ⟨e', he'⟩ := hfault.eq_link
      cases he'
  · have hparse (e : NumeralError) (h : Store.parse settings tokens = .error (.numeral e)) :
        ∃ e, (link settings tokens).result = .error (.numeral e) :=
      ⟨e, (link_eq_error hv).2 (.inl h)⟩
    rintro (⟨pre, t, post, r, hts, hpre, ht⟩ | ⟨r, hrun, hw⟩ |
      ⟨s, pre, m, d, post, e, hp, hs, hin, hdis, he, hmax, hw⟩)
    · obtain ⟨e, hrun⟩ := (Reading.run_eq_numeral .start).2 ⟨pre, t, post, r, hts, hpre, ht⟩
      exact hparse e (bind_eq_error.2 (.inl hrun))
    · have hfin : ∃ e, r.finish tokens.getLast? = .error (.numeral e) :=
        Reading.finish_eq_numeral.2 hw
      obtain ⟨e, hfin⟩ := hfin
      exact hparse e (bind_eq_error.2 (.inr ⟨r, hrun, hfin⟩))
    · obtain ⟨err, hf⟩ :=
        (firstPass_eq_numeral hv.1).2 ⟨pre, m, d, post, e, hs, hin, hdis, he, hmax, hw⟩
      exact ⟨err, (link_eq_error hv).2 (.inr ⟨s, hp, .inl hf⟩)⟩

/-- A link of tokens that are not empty gives a result, an error of the program, or a numeral
error. -/
theorem link_cases (hv : settings.IsValid) (ht : ∀ t ∈ tokens, t.chars ≠ []) :
    (∃ r, (link settings tokens).result = .ok r) ∨
      (∃ e, (link settings tokens).result = .error (.link e)) ∨
        ∃ e, (link settings tokens).result = .error (.numeral e) := by
  cases h : (link settings tokens).result with
  | ok r => exact .inl ⟨r, rfl⟩
  | error f =>
    have hf : (∃ e, f = .link e) ∨ ∃ e, f = .numeral e := by
      rcases (link_eq_error hv).1 h with hp | ⟨s, hp, hf | ⟨table, htable, hf⟩⟩
      · rcases bind_eq_error.1 hp with hrun | ⟨r, -, hfin⟩
        · exact Reading.run_eq_error .start ht hrun
        · exact Reading.finish_eq_error hfin
      · obtain ⟨_, _, _, -, hfault, -⟩ :=
          (firstPass_eq_error_iff hv.1 (Store.asRead_of_parse hp)).1 hf
        exact hfault.eq_link_or_numeral
      · obtain ⟨_, _, _, -, hfault, -⟩ :=
          (secondPass_eq_error_iff hv.1 (Store.asRead_of_parse hp) htable).1 hf
        exact .inl hfault.eq_link
    rcases hf with ⟨e, rfl⟩ | ⟨e, rfl⟩
    · exact .inr (.inl ⟨e, rfl⟩)
    · exact .inr (.inr ⟨e, rfl⟩)

/-- **Every other failure is an error of the program.**  The link of a text gives a result or an
error of the program except where the digit limit is exceeded, and there it fails with a numeral
error. -/
theorem linkText_failures (hv : settings.IsValid) (source filename : String) :
    (((∃ r, (linkText settings source filename).result = .ok r) ∨
        ∃ e, (linkText settings source filename).result = .error (.link e)) ↔
      ¬ ExceedsDigitLimit settings (Token.scan source filename)) ∧
    ((∃ e, (linkText settings source filename).result = .error (.numeral e)) ↔
      ExceedsDigitLimit settings (Token.scan source filename)) := by
  have hnumeral : (∃ e, (linkText settings source filename).result = .error (.numeral e)) ↔
      ExceedsDigitLimit settings (Token.scan source filename) := link_eq_numeral hv
  refine ⟨?_, hnumeral⟩
  rw [← hnumeral]
  constructor
  · rintro (⟨r, hr⟩ | ⟨e, he⟩) ⟨e', he'⟩
    · cases hr.symm.trans he'
    · cases he.symm.trans he'
  · intro hn
    rcases link_cases hv fun t ht => chars_ne_nil_of_mem_scan ht with hr | he | he
    · exact .inl hr
    · exact .inr he
    · exact absurd he hn

/-! ### A count that is too large when doubled -/

/-- A count of definitions alone opens a section of twice as many tokens. -/
theorem Reading.run_count {t : Token} {n : Nat} (h : Numeral.Writes t.chars n) :
    run settings {} [t] = .ok ⟨State.due .definitions n, some {}, .empty⟩ := by
  rw [run, List.foldlM_cons, step_count rfl, number_eq_ok.2 h]
  rfl

theorem Numeral.pow_le_fives_mul_two (k : Nat) :
    Nat.pow 10 (k + 1) ≤ value (List.replicate (k + 1) '5') * 2 := by
  have hvalue : value (List.replicate (k + 1) '5') =
      5 * Nat.pow 10 k + value (List.replicate k '5') := by
    rw [List.replicate_succ, value, List.length_replicate]
    rfl
  have hpow : Nat.pow 10 (k + 1) = Nat.pow 10 k * 10 := rfl
  omega

/-- As many fives as can be read, twice which cannot be written. -/
def fives : List Char := List.replicate Numeral.digitLimit '5'

theorem mem_digits_of_mem_fives {c : Char} (h : c ∈ fives) : c ∈ Numeral.digits := by
  rw [List.eq_of_mem_replicate h]
  decide

theorem isAlphanumeric_of_mem_fives {c : Char} (h : c ∈ fives) : isAlphanumeric c = true := by
  rw [List.eq_of_mem_replicate h]
  decide

theorem fives_ne_nil : fives ≠ [] := by
  refine List.ne_nil_of_length_pos ?_
  rw [fives, List.length_replicate]
  exact Nat.succ_pos 4299

theorem exceedsDigitLimit_fives {t : Token} (ht : t.chars = fives) :
    ExceedsDigitLimit settings [t] := by
  have hwrites : Numeral.Writes t.chars (Numeral.value fives) := by
    rw [ht]
    exact ⟨fives_ne_nil, fun c hc => mem_digits_of_mem_fives hc, Nat.le_of_eq List.length_replicate,
      rfl⟩
  refine .ending _ (Reading.run_count hwrites) ?_
  obtain ⟨k, hk⟩ : ∃ k, Numeral.digitLimit = k + 1 := ⟨4299, rfl⟩
  rw [Reading.State.remaining_due, Numeral.isWritable, Int.natAbs_natCast, fives, hk]
  exact decide_eq_false (Nat.not_lt.2 (Numeral.pow_le_fives_mul_two k))

theorem exceedsDigitLimit_scan_fives :
    ExceedsDigitLimit settings (Token.scan (String.ofList fives) "<input>") := by
  rw [scan_of_forall fives_ne_nil fun c hc => isAlphanumeric_of_mem_fives hc]
  exact exceedsDigitLimit_fives String.toList_ofList

/-- At a text of fives the failure is a numeral error. -/
theorem linkText_failures_fives :
    Settings.IsValid {} ∧
      ∃ e, (linkText {} (String.ofList fives) "<input>").result = .error (.numeral e) := by
  have hv : Settings.IsValid {} := by decide
  exact ⟨hv, (linkText_failures hv (String.ofList fives) "<input>").2.2
    exceedsDigitLimit_scan_fives⟩

/-- **A link may fail otherwise than with an error of the program**, and does so at a text of
fives. -/
theorem linkText_fives_neither :
    ¬ ((∃ r, (linkText {} (String.ofList fives) "<input>").result = .ok r) ∨
      ∃ e, (linkText {} (String.ofList fives) "<input>").result = .error (.link e)) := by
  have hv : Settings.IsValid {} := by decide
  obtain ⟨e, he⟩ := (link_eq_numeral hv).2 exceedsDigitLimit_scan_fives
  rintro (⟨r, hr⟩ | ⟨e', he'⟩)
  · cases he.symm.trans hr
  · cases he.symm.trans he'

end Linkage
