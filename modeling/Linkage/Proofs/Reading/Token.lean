import Linkage.Reading.Program

/-!
# Reading — what one token writes

A reader takes a number, a classification or a word from one token.  Each of the three is described
here by the characters alone, and the reader's function is shown to succeed exactly on them.

* `Numeral.Writes`: a run of one to 4300 digits, with its value.  Each digit is told by its place in
  the row of digits, and counts by its place in the run (`Numeral.value`).
* `Classification.Begins`: the first character is the letter of a classification.
* `WritesWord`: one digit, then a number that is an address of the machine.

The failures are described as well: a number or a word that is too long stops the reader with a
numeral error (`number_eq_numeral`, `opcodeAndAddress_eq_numeral`), any other token that does not
fit with an error of the program.
-/

namespace Linkage

/-! ### Descriptions by characters -/

namespace Numeral

/-- The digits in the order of their values. -/
def digits : List Char := ['0', '1', '2', '3', '4', '5', '6', '7', '8', '9']

/-- The number that a run of digits writes in base ten, place by place. -/
def value : List Char → Nat
  | []      => 0
  | c :: cs => digits.idxOf c * Nat.pow 10 cs.length + value cs

/-- The characters are a run of one to 4300 digits, and `n` is the number that they write. -/
def Writes (cs : List Char) (n : Nat) : Prop :=
  cs ≠ [] ∧ (∀ c ∈ cs, c ∈ digits) ∧ cs.length ≤ 4300 ∧ value cs = n

variable {c : Char} {cs : List Char} {k m n : Nat}

theorem Writes.unique (hm : Writes cs m) (hn : Writes cs n) : m = n :=
  hm.2.2.2.symm.trans hn.2.2.2

theorem isDigit_iff : c.isDigit = true ↔ c ∈ digits := by
  constructor
  · intro h
    obtain ⟨hlo, hhi⟩ : 48 ≤ c.toNat ∧ c.toNat ≤ 57 := by
      rw [Char.isDigit, Bool.and_eq_true, decide_eq_true_iff, decide_eq_true_iff] at h
      exact ⟨UInt32.le_iff_toNat_le.1 h.1, UInt32.le_iff_toNat_le.1 h.2⟩
    rw [← Char.ofNat_toNat c]
    exact (by decide : ∀ n ∈ List.range' 48 10, Char.ofNat n ∈ digits) c.toNat
      (List.mem_range'_1.2 ⟨hlo, by omega⟩)
  · exact List.all_eq_true.1 (by decide : digits.all Char.isDigit = true) c

theorem digitValue_eq (h : c ∈ digits) : digitValue c = digits.idxOf c := by
  have hall : digits.all (fun c => digitValue c == digits.idxOf c) = true := by decide
  exact eq_of_beq (List.all_eq_true.1 hall c h)

theorem idxOf_digits_le (h : c ∈ digits) : digits.idxOf c ≤ 9 :=
  Nat.le_of_lt_succ (List.idxOf_lt_length_of_mem h)

/-- Folding over digits from a number shifts that number by as many places. -/
theorem foldl_digits (h : ∀ c ∈ cs, c ∈ digits) (k : Nat) :
    cs.foldl (fun n c => 10 * n + digitValue c) k = k * Nat.pow 10 cs.length + value cs := by
  induction cs generalizing k with
  | nil => exact (Nat.mul_one k).symm
  | cons c cs ih =>
    obtain ⟨hc, hcs⟩ := List.forall_mem_cons.1 h
    have hpow : Nat.pow 10 (cs.length + 1) = Nat.pow 10 cs.length * 10 := rfl
    rw [List.foldl_cons, ih hcs, digitValue_eq hc, value, List.length_cons, hpow, Nat.add_mul,
      Nat.add_assoc, Nat.mul_comm 10 k, Nat.mul_assoc, Nat.mul_comm 10]

theorem ofDigits_eq_value (h : ∀ c ∈ cs, c ∈ digits) : ofDigits cs = value cs := by
  rw [ofDigits, foldl_digits h, Nat.zero_mul, Nat.zero_add]

/-- A number is written by the numerals within the digit limit whose value it is. -/
theorem writes_iff :
    Writes cs n ↔ isNumeral cs = true ∧ cs.length ≤ digitLimit ∧ ofDigits cs = n := by
  rw [isNumeral_eq_true]
  simp only [isDigit_iff]
  constructor
  · rintro ⟨hne, hdigits, hlen, hvalue⟩
    exact ⟨⟨hne, hdigits⟩, hlen, (ofDigits_eq_value hdigits).trans hvalue⟩
  · rintro ⟨⟨hne, hdigits⟩, hlen, hvalue⟩
    exact ⟨hne, hdigits, hlen, (ofDigits_eq_value hdigits).symm.trans hvalue⟩

instance (cs : List Char) (n : Nat) : Decidable (Writes cs n) := decidable_of_iff _ writes_iff.symm

theorem value_lt (h : ∀ c ∈ cs, c ∈ digits) : value cs < Nat.pow 10 cs.length := by
  induction cs with
  | nil => exact Nat.one_pos
  | cons c cs ih =>
    obtain ⟨hc, hcs⟩ := List.forall_mem_cons.1 h
    have hrest := ih hcs
    have hfirst : digits.idxOf c * Nat.pow 10 cs.length ≤ 9 * Nat.pow 10 cs.length :=
      Nat.mul_le_mul_right _ (idxOf_digits_le hc)
    show digits.idxOf c * Nat.pow 10 cs.length + value cs < Nat.pow 10 cs.length * 10
    omega

/-- A number is less than every power of ten with more digits. -/
theorem Writes.lt_pow (h : Writes cs n) (hk : cs.length ≤ k) : n < Nat.pow 10 k := by
  obtain ⟨-, hdigits, -, rfl⟩ := h
  exact Nat.lt_of_lt_of_le (value_lt hdigits) (Nat.pow_le_pow_right (Nat.succ_pos 9) hk)

/-- A digit and a run of digits are a numeral together. -/
theorem isNumeral_cons (hcs : cs ≠ []) :
    isNumeral (c :: cs) = true ↔ c.isDigit = true ∧ isNumeral cs = true := by
  simp [isNumeral_eq_true, hcs]

end Numeral

/-- The first character is the letter of the classification. -/
def Classification.Begins (k : Classification) (cs : List Char) : Prop :=
  cs.head? = some (match k with
    | .immediate => 'I'
    | .absolute  => 'A'
    | .relative  => 'R'
    | .external  => 'E')

theorem Classification.begins_iff {k : Classification} {cs : List Char} :
    k.Begins cs ↔ cs.head? = some k.letter := Iff.rfl

theorem Classification.Begins.unique {k k' : Classification} {cs : List Char} (h : k.Begins cs)
    (h' : k'.Begins cs) : k = k' := by
  have hl : k.letter = k'.letter := Option.some.inj (h.symm.trans h')
  have hk := ofLetter?_letter k
  rw [hl, ofLetter?_letter] at hk
  exact (Option.some.inj hk).symm

/-- The characters are an opcode digit followed by the number of an address of the machine. -/
def WritesWord (settings : Settings) (cs : List Char) (opcode address : Nat) : Prop :=
  ∃ c ds, cs = c :: ds ∧ c ∈ Numeral.digits ∧ Numeral.digits.idxOf c = opcode ∧
    Numeral.Writes ds address ∧ (address : Int) ≤ settings.machineSize - 1

/-- A word as its reader takes it apart. -/
theorem writesWord_iff {settings : Settings} {cs : List Char} {o a : Nat} :
    WritesWord settings cs o a ↔ ∃ c ds, cs = c :: ds ∧ c.isDigit = true ∧
      Numeral.digitValue c = o ∧ (Numeral.isNumeral ds = true ∧ ds.length ≤ Numeral.digitLimit ∧
        Numeral.ofDigits ds = a) ∧ (a : Int) ≤ settings.maxAddress := by
  refine exists_congr fun c => exists_congr fun ds => and_congr_right fun _ => ?_
  rw [Numeral.isDigit_iff, Numeral.writes_iff]
  refine and_congr_right fun hc => ?_
  rw [Numeral.digitValue_eq hc]
  rfl

theorem WritesWord.unique {settings : Settings} {cs : List Char} {o a o' a' : Nat}
    (h : WritesWord settings cs o a) (h' : WritesWord settings cs o' a') : o = o' ∧ a = a' := by
  obtain ⟨c, ds, rfl, -, ho, ha, -⟩ := h
  obtain ⟨c', ds', he, -, ho', ha', -⟩ := h'
  cases he
  exact ⟨ho.symm.trans ho', ha.unique ha'⟩

namespace Reading

variable {settings : Settings} {t : Token} {i j : Nat}

/-! ### Numbers -/

theorem mapError_read (cs : List Char) :
    (Numeral.read cs).mapError Failure.numeral =
      if Numeral.digitLimit < cs.length then .error (.numeral (.tooManyDigits cs.length))
      else .ok (Numeral.ofDigits cs) := by
  unfold Numeral.read
  split <;> rfl

/-- Reading a number, case by case. -/
theorem number_eq (cause : String → Cause) (t : Token) (i : Nat) :
    number cause t i =
      if Numeral.isNumeral t.chars = true then
        if Numeral.digitLimit < t.chars.length then
          .error (.numeral (.tooManyDigits t.chars.length))
        else .ok (Numeral.ofDigits t.chars)
      else .error (rejected t i (cause t.text)) := by
  rw [number, mapError_read]

theorem number_eq_ok {cause : String → Cause} {n : Nat} :
    number cause t i = .ok n ↔ Numeral.Writes t.chars n := by
  rw [number_eq, Numeral.writes_iff]
  split
  · next h =>
    split
    · next hl => simp only [reduceCtorEq, Nat.not_le.2 hl, false_and, and_false]
    · next hl => simp only [Except.ok.injEq, h, Nat.not_lt.1 hl, true_and]
  · next h => simp only [reduceCtorEq, h, false_and]

/-- A numeral beyond the digit limit is the one token on which reading a number gives a numeral
error. -/
theorem number_eq_numeral {cause : String → Cause} {e : NumeralError} :
    number cause t i = .error (.numeral e) ↔
      Numeral.isNumeral t.chars = true ∧ Numeral.digitLimit < t.chars.length ∧
        e = .tooManyDigits t.chars.length := by
  rw [number_eq]
  split
  · next h =>
    split
    · next hl => simp only [Except.error.injEq, Failure.numeral.injEq, h, hl, true_and, eq_comm]
    · next hl => simp only [reduceCtorEq, hl, false_and, and_false]
  · next h => simp only [rejected, Except.error.injEq, reduceCtorEq, h, false_and]

/-- Reading a number fails with an error of the program or with a numeral error. -/
theorem number_eq_error {cause : String → Cause} {f : Failure}
    (h : number cause t i = .error f) : (∃ e, f = .link e) ∨ ∃ e, f = .numeral e := by
  rw [number_eq] at h
  split at h
  · split at h
    · cases h; exact .inr ⟨_, rfl⟩
    · cases h
  · cases h; exact .inl ⟨_, rfl⟩

/-! ### Classifications -/

theorem classification_eq_ok {k : Classification} :
    classification t i = .ok k ↔ k.Begins t.chars := by
  unfold classification
  rw [Classification.begins_iff]
  cases t.chars with
  | nil => simp
  | cons c cs =>
    cases hk : Classification.ofLetter? c with
    | none =>
      have hc : c ≠ k.letter := fun hc => by
        rw [hc, Classification.ofLetter?_letter] at hk
        cases hk
      simp [hc, hk]
    | some k' =>
      rw [Classification.ofLetter?_eq_some] at hk
      subst hk
      simp only [Classification.ofLetter?_letter, Except.ok.injEq, List.head?_cons]
      have hb : k'.Begins [k'.letter] := rfl
      exact ⟨fun h => h ▸ rfl, fun h => hb.unique h⟩

/-- A token that is not classified is refused with an error of the program, unless it is empty. -/
theorem classification_eq_error {f : Failure} (h : classification t i = .error f) :
    (∃ e, f = .link e) ∨ t.chars = [] ∧ f = .fault .emptyType := by
  unfold classification at h
  split at h
  · next hc => cases h; exact .inr ⟨hc, rfl⟩
  · split at h
    · cases h
    · cases h; exact .inl ⟨_, rfl⟩

/-! ### Words -/

/-- Reading a word of at least two digits, case by case. -/
theorem opcodeAndAddress_eq {c d : Char} {ds : List Char} (h : t.chars = c :: d :: ds)
    (hn : Numeral.isNumeral t.chars = true) :
    opcodeAndAddress settings t i j =
      if Numeral.digitLimit < (d :: ds).length then
        .error (.numeral (.tooManyDigits (d :: ds).length))
      else if settings.maxAddress < Numeral.ofDigits (d :: ds) then
        .error (rejected t i (.addressOutOfRange (Numeral.ofDigits (d :: ds) : Nat)
          settings.machineSize (some j)))
      else .ok (Numeral.digitValue c, Numeral.ofDigits (d :: ds)) := by
  unfold opcodeAndAddress Numeral.read
  rw [h] at hn ⊢
  by_cases hl : Numeral.digitLimit < (d :: ds).length
  · simp only [hn, if_pos hl, Bool.not_true, Bool.false_eq_true, if_false]
    rfl
  · simp only [hn, if_neg hl, Bool.not_true, Bool.false_eq_true, if_false]
    rfl

/-- A token that is no numeral of at least two digits is refused as a word. -/
theorem opcodeAndAddress_of_not_isNumeral (settings : Settings) (i j : Nat)
    (h : ¬ (Numeral.isNumeral t.chars = true ∧ 2 ≤ t.chars.length)) :
    ∃ cause, opcodeAndAddress settings t i j = .error (rejected t i cause) := by
  unfold opcodeAndAddress
  split
  · exact ⟨_, rfl⟩
  · exact ⟨_, rfl⟩
  · next c d ds hc =>
    have hn : ¬ Numeral.isNumeral (c :: d :: ds) = true := fun hn => h (by simp [hc, hn])
    exact ⟨.nonDigitWord t.text, by simp [hc, hn]⟩

/-- At least two characters, taken apart. -/
theorem exists_cons_cons_of_length {cs : List Char} (h : 2 ≤ cs.length) :
    ∃ c d ds, cs = c :: d :: ds := by
  match cs, h with
  | c :: d :: ds, _ => exact ⟨c, d, ds, rfl⟩

theorem opcodeAndAddress_eq_ok {o a : Nat} :
    opcodeAndAddress settings t i j = .ok (o, a) ↔ WritesWord settings t.chars o a := by
  rw [writesWord_iff]
  by_cases hw : Numeral.isNumeral t.chars = true ∧ 2 ≤ t.chars.length
  · obtain ⟨hn, hlen⟩ := hw
    obtain ⟨c, d, ds, hc⟩ := exists_cons_cons_of_length hlen
    have hd := (Numeral.isNumeral_cons (List.cons_ne_nil d ds)).1 (hc ▸ hn)
    rw [opcodeAndAddress_eq hc hn, hc]
    constructor
    · intro h
      split at h
      · cases h
      · next hl =>
        split at h
        · cases h
        · next hmax =>
          cases h
          exact ⟨c, d :: ds, rfl, hd.1, rfl, ⟨hd.2, Nat.not_lt.1 hl, rfl⟩, Int.not_lt.1 hmax⟩
    · rintro ⟨c', ds', he, -, rfl, ⟨-, hl, rfl⟩, hmax⟩
      cases he
      rw [if_neg (Nat.not_lt.2 hl), if_neg (Int.not_lt.2 hmax)]
  · obtain ⟨cause, hr⟩ := opcodeAndAddress_of_not_isNumeral settings i j hw
    rw [hr]
    constructor
    · intro h
      cases h
    · rintro ⟨c, ds, hc, hd, -, hds, -⟩
      have hne : ds ≠ [] := (Numeral.isNumeral_eq_true.1 hds.1).1
      refine absurd ⟨?_, ?_⟩ hw
      · rw [hc]
        exact (Numeral.isNumeral_cons hne).2 ⟨hd, hds.1⟩
      · rw [hc, List.length_cons]
        exact Nat.succ_le_succ (List.length_pos_iff.2 hne)

/-- A word whose address digits exceed the digit limit is the one token on which reading a word
gives a numeral error. -/
theorem opcodeAndAddress_eq_numeral {e : NumeralError} :
    opcodeAndAddress settings t i j = .error (.numeral e) ↔
      Numeral.isNumeral t.chars = true ∧ Numeral.digitLimit + 1 < t.chars.length ∧
        e = .tooManyDigits (t.chars.length - 1) := by
  by_cases hw : Numeral.isNumeral t.chars = true ∧ 2 ≤ t.chars.length
  · obtain ⟨hn, hlen⟩ := hw
    obtain ⟨c, d, ds, hc⟩ := exists_cons_cons_of_length hlen
    have hlength : t.chars.length = (d :: ds).length + 1 := by rw [hc]; rfl
    rw [opcodeAndAddress_eq hc hn, hlength, Nat.add_lt_add_iff_right, Nat.add_sub_cancel]
    split
    · next hl => simp only [Except.error.injEq, Failure.numeral.injEq, hn, hl, true_and, eq_comm]
    · next hl => split <;> simp only [rejected, Except.error.injEq, reduceCtorEq, hl, false_and,
        and_false]
  · obtain ⟨cause, hr⟩ := opcodeAndAddress_of_not_isNumeral settings i j hw
    rw [hr]
    constructor
    · intro h
      cases h
    · rintro ⟨hn, hl, -⟩
      exact absurd ⟨hn, by omega⟩ hw

/-- Reading a word fails with an error of the program or with a numeral error. -/
theorem opcodeAndAddress_eq_error {f : Failure}
    (h : opcodeAndAddress settings t i j = .error f) :
    (∃ e, f = .link e) ∨ ∃ e, f = .numeral e := by
  by_cases hw : Numeral.isNumeral t.chars = true ∧ 2 ≤ t.chars.length
  · obtain ⟨c, d, ds, hc⟩ := exists_cons_cons_of_length hw.2
    rw [opcodeAndAddress_eq hc hw.1] at h
    split at h
    · cases h; exact .inr ⟨_, rfl⟩
    · split at h
      · cases h; exact .inl ⟨_, rfl⟩
      · cases h
  · obtain ⟨cause, hr⟩ := opcodeAndAddress_of_not_isNumeral settings i j hw
    rw [hr] at h
    cases h
    exact .inl ⟨_, rfl⟩

end Reading

end Linkage
