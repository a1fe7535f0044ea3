import Linkage.Numeral
import Mathlib.Data.List.DropRight
import Mathlib.Data.List.TakeWhile

/-!
# Numerals — what a signed numeral looks like

A signed numeral is described by its parts (`Numeral.WritesSigned`): blanks, at most one sign,
grouped digits, blanks.  The digits are those of any script and may differ in script; single
underscores may stand between two of them (`Numeral.Grouped`), and there are at most `digitLimit`.

**A signed numeral is read exactly when it is written so** (`readSigned?_eq_some`).  The parts can
be told apart because a blank is neither a digit nor a sign.
-/

namespace Linkage

/-! ### Blanks and digits -/

theorem CodePoint.exists_of_member {intervals : List Interval} {n : Nat}
    (h : member intervals n = true) : ∃ p ∈ intervals, p.1 ≤ n ∧ n ≤ p.2 := by
  induction intervals with
  | nil => cases h
  | cons p rest ih =>
    obtain ⟨lo, hi⟩ := p
    rw [member] at h
    split at h
    · cases h
    · next hlo =>
      rcases Bool.or_eq_true_iff.1 h with hhi | h
      · exact ⟨(lo, hi), List.mem_cons_self, Nat.not_lt.1 hlo, of_decide_eq_true hhi⟩
      · obtain ⟨p, hp, hn⟩ := ih h
        exact ⟨p, List.mem_cons_of_mem _ hp, hn⟩

namespace Numeral

variable {c : Char} {cs : List Char} {d : Nat} {ds : List Nat} {n : Int} {text : String}

/-- A blank is no digit of any script. -/
theorem isBlank_of_decimalValue? (h : decimalValue? c = some d) : isBlank c = false := by
  rw [Bool.eq_false_iff]
  intro hb
  obtain ⟨p, hp, hlo, hhi⟩ := CodePoint.exists_of_member hb
  have hnone : CodePoint.digitValueFrom CodePoint.zeros c.toNat = none :=
    (by decide : ∀ p ∈ _, ∀ n ∈ List.range' p.1 (p.2 + 1 - p.1),
      CodePoint.digitValueFrom CodePoint.zeros n = none) p hp c.toNat
        (List.mem_range'_1.2 ⟨hlo, by omega⟩)
  cases hnone.symm.trans h

/-! ### Grouped digits -/

/-- The characters are digits with the given values, single underscores between some of them. -/
inductive Grouped : List Char → List Nat → Prop where
  | last {c : Char} {d : Nat} (h : decimalValue? c = some d) : Grouped [c] [d]
  | next {c : Char} {d : Nat} {cs : List Char} {ds : List Nat} (h : decimalValue? c = some d)
      (rest : Grouped cs ds) : Grouped (c :: cs) (d :: ds)
  | underscore {c : Char} {d : Nat} {cs : List Char} {ds : List Nat}
      (h : decimalValue? c = some d) (rest : Grouped cs ds) : Grouped (c :: '_' :: cs) (d :: ds)

namespace Grouped

/-- Grouped digits begin with a digit. -/
theorem exists_head (h : Grouped cs ds) : ∃ c d, cs.head? = some c ∧ decimalValue? c = some d := by
  cases h with
  | last h => exact ⟨_, _, rfl, h⟩
  | next h _ => exact ⟨_, _, rfl, h⟩
  | underscore h _ => exact ⟨_, _, rfl, h⟩

/-- Grouped digits end with a digit. -/
theorem exists_getLast (h : Grouped cs ds) :
    ∃ c d, cs.getLast? = some c ∧ decimalValue? c = some d := by
  induction h with
  | last h => exact ⟨_, _, rfl, h⟩
  | next _ _ ih =>
    obtain ⟨c, d, hc, hd⟩ := ih
    exact ⟨c, d, by rw [List.getLast?_cons, hc]; rfl, hd⟩
  | underscore _ _ ih =>
    obtain ⟨c, d, hc, hd⟩ := ih
    exact ⟨c, d, by rw [List.getLast?_cons, List.getLast?_cons, hc]; rfl, hd⟩

end Grouped

theorem groupedDigits?_eq_some : groupedDigits? cs = some ds ↔ Grouped cs ds := by
  constructor
  · intro h
    fun_induction groupedDigits? cs generalizing ds with
    | case1 => cases h
    | case2 c =>
      obtain ⟨d, hd, rfl⟩ := Option.map_eq_some_iff.1 h
      exact .last hd
    | case3 c cs ih =>
      simp only [Option.bind_eq_bind, Option.bind_eq_some_iff, Option.pure_def,
        Option.some.injEq] at h
      obtain ⟨d, hd, ds, hds, rfl⟩ := h
      exact .underscore hd (ih hds)
    | case4 c cs _ _ ih =>
      simp only [Option.bind_eq_bind, Option.bind_eq_some_iff, Option.pure_def,
        Option.some.injEq] at h
      obtain ⟨d, hd, ds, hds, rfl⟩ := h
      exact .next hd (ih hds)
  · intro h
    induction h with
    | last h => simp [groupedDigits?, h]
    | @next c d cs ds h rest ih =>
      -- the rest begins with a digit, so neither of the first three rows applies
      obtain ⟨c', d', hc', hd'⟩ := rest.exists_head
      have hne : c' ≠ '_' := by rintro rfl; cases hd'
      cases cs with
      | nil => cases hc'
      | cons c'' cs =>
        obtain rfl : c'' = c' := Option.some.inj hc'
        rw [groupedDigits?, h, ih]
        · rfl
        · intro he
          cases he
        · intro cs' he
          cases he
          exact hne rfl
    | underscore h rest ih => simp [groupedDigits?, h, ih]

/-! ### Signed numerals -/

/-- The number that digits with the given values write. -/
def ofValues (ds : List Nat) : Nat := ds.foldl (fun n d => 10 * n + d) 0

/-- The signs that a numeral may begin with, and what becomes of the number. -/
def signs : List (List Char × Int) := [([], 1), (['+'], 1), (['-'], -1)]

/-- The text is a signed numeral, and `n` is its value. -/
def WritesSigned (text : String) (n : Int) : Prop :=
  ∃ before sign factor body after ds, text.toList = before ++ (sign ++ body) ++ after ∧
    (∀ c ∈ before, isBlank c = true) ∧ (∀ c ∈ after, isBlank c = true) ∧ (sign, factor) ∈ signs ∧
      Grouped body ds ∧ ds.length ≤ digitLimit ∧ n = factor * (ofValues ds : Nat)

theorem readGrouped?_eq_some {k : Nat} :
    readGrouped? cs = some k ↔ ∃ ds, Grouped cs ds ∧ ds.length ≤ digitLimit ∧ ofValues ds = k := by
  simp only [readGrouped?, Option.bind_eq_bind, Option.bind_eq_some_iff, groupedDigits?_eq_some]
  refine exists_congr fun ds => and_congr_right fun _ => ?_
  split
  · next hl => simp only [reduceCtorEq, Nat.not_le.2 hl, false_and]
  · next hl => simp only [Option.some.injEq, Nat.not_lt.1 hl, true_and, ofValues]

/-- Blanks are dropped at either end. -/
theorem exists_trimmed (cs : List Char) : ∃ before after, cs = before ++ trimmed cs ++ after ∧
    (∀ c ∈ before, isBlank c = true) ∧ ∀ c ∈ after, isBlank c = true := by
  have hright : cs.dropWhile isBlank =
      trimmed cs ++ (cs.dropWhile isBlank).rtakeWhile isBlank :=
    (List.rdropWhile_append_rtakeWhile ..).symm
  refine ⟨cs.takeWhile isBlank, (cs.dropWhile isBlank).rtakeWhile isBlank, ?_, ?_, ?_⟩
  · rw [List.append_assoc, ← hright, List.takeWhile_append_dropWhile]
  · exact fun c hc => List.mem_takeWhile_imp hc
  · exact fun c hc => List.mem_rtakeWhile_imp hc

/-- Characters between blanks are what is left, when neither the first nor the last is a blank. -/
theorem trimmed_eq {before after : List Char} (hb : ∀ c ∈ before, isBlank c = true)
    (ha : ∀ c ∈ after, isBlank c = true) (hfirst : ∃ c ∈ cs.head?, isBlank c = false)
    (hlast : ∃ c ∈ cs.getLast?, isBlank c = false) : trimmed (before ++ cs ++ after) = cs := by
  obtain ⟨c, hc, hblank⟩ := hfirst
  obtain ⟨c', hc', hblank'⟩ := hlast
  obtain ⟨cs', rfl⟩ := List.head?_eq_some_iff.1 hc
  obtain ⟨cs'', hcs⟩ := List.getLast?_eq_some_iff.1 hc'
  have hstart : (before ++ (c :: cs') ++ after).dropWhile isBlank = c :: cs' ++ after := by
    rw [List.append_assoc, List.dropWhile_append_of_pos hb]
    exact List.dropWhile_cons_of_neg (by simp [hblank])
  have hend : (c :: cs' ++ after).reverse.dropWhile isBlank = (c :: cs').reverse := by
    rw [List.reverse_append,
      List.dropWhile_append_of_pos fun c hc => ha c (List.mem_reverse.1 hc), hcs,
      List.reverse_append]
    exact List.dropWhile_cons_of_neg (by simp [hblank'])
  rw [trimmed, hstart, hend, List.reverse_reverse]

theorem mem_signs {sign : List Char} {factor : Int} : (sign, factor) ∈ signs ↔
    (sign = [] ∧ factor = 1) ∨ (sign = ['+'] ∧ factor = 1) ∨ (sign = ['-'] ∧ factor = -1) := by
  simp [signs]

/-- A sign and grouped digits neither begin nor end with a blank. -/
theorem trimmed_signed {before sign body after : List Char} {factor : Int}
    (hb : ∀ c ∈ before, isBlank c = true) (ha : ∀ c ∈ after, isBlank c = true)
    (hsign : (sign, factor) ∈ signs) (hbody : Grouped body ds) :
    trimmed (before ++ (sign ++ body) ++ after) = sign ++ body := by
  obtain ⟨c, d, hc, hd⟩ := hbody.exists_head
  obtain ⟨c', d', hc', hd'⟩ := hbody.exists_getLast
  refine trimmed_eq hb ha ?_ ⟨c', ?_, isBlank_of_decimalValue? hd'⟩
  · rcases mem_signs.1 hsign with ⟨rfl, -⟩ | ⟨rfl, -⟩ | ⟨rfl, -⟩
    · exact ⟨c, hc, isBlank_of_decimalValue? hd⟩
    · exact ⟨'+', rfl, by decide⟩
    · exact ⟨'-', rfl, by decide⟩
  · rw [List.getLast?_append, hc']
    rfl

/-- Behind the blanks a signed numeral is read by its sign. -/
theorem readSigned?_of_trimmed {sign body : List Char} {factor : Int}
    (h : trimmed text.toList = sign ++ body) (hsign : (sign, factor) ∈ signs)
    (hbody : Grouped body ds) :
    readSigned? text = (readGrouped? body).map fun k => factor * (k : Int) := by
  obtain ⟨c, d, hc, hd⟩ := hbody.exists_head
  obtain ⟨cs, rfl⟩ := List.head?_eq_some_iff.1 hc
  rw [readSigned?, h]
  rcases mem_signs.1 hsign with ⟨rfl, rfl⟩ | ⟨rfl, rfl⟩ | ⟨rfl, rfl⟩
  · simp only [List.nil_append, Int.one_mul]
    split
    · next he => cases he; cases hd
    · next he => cases he; cases hd
    · rfl
  · simp only [List.singleton_append, Int.one_mul]
  · simp only [List.singleton_append, Int.neg_one_mul]

/-- **A signed numeral is read exactly when it is written so.** -/
theorem readSigned?_eq_some : readSigned? text = some n ↔ WritesSigned text n := by
  constructor
  · intro h
    have hnumber {f : Int → Int} {o : Option Nat}
        (ho : (do pure ((← o : Nat) : Int)).map f = some n) : ∃ k : Nat, o = some k ∧ n = f k := by
      cases o with
      | none => cases ho
      | some k => exact ⟨k, rfl, (Option.some.inj ho).symm⟩
    have hparts : ∃ sign factor body k, trimmed text.toList = sign ++ body ∧
        (sign, factor) ∈ signs ∧ readGrouped? body = some k ∧ n = factor * (k : Int) := by
      rw [readSigned?] at h
      split at h
      · next cs ht =>
        obtain ⟨k, hk, rfl⟩ := hnumber h
        exact ⟨['-'], -1, cs, k, ht, by simp [signs], hk, (Int.neg_one_mul _).symm⟩
      · next cs ht =>
        obtain ⟨k, hk, rfl⟩ := hnumber h
        exact ⟨['+'], 1, cs, k, ht, by simp [signs], hk, (Int.one_mul _).symm⟩
      · obtain ⟨k, hk, rfl⟩ := hnumber h
        exact ⟨[], 1, _, k, rfl, by simp [signs], hk, (Int.one_mul _).symm⟩
    obtain ⟨before, after, htext, hb, ha⟩ := exists_trimmed text.toList
    obtain ⟨sign, factor, body, k, ht, hsign, hk, rfl⟩ := hparts
    obtain ⟨ds, hds, hlen, rfl⟩ := readGrouped?_eq_some.1 hk
    exact ⟨before, sign, factor, body, after, ds, ht ▸ htext, hb, ha, hsign, hds, hlen, rfl⟩
  · rintro ⟨before, sign, factor, body, after, ds, htext, hb, ha, hsign, hds, hlen, rfl⟩
    have ht : trimmed text.toList = sign ++ body := htext ▸ trimmed_signed hb ha hsign hds
    rw [readSigned?_of_trimmed ht hsign hds, readGrouped?_eq_some.2 ⟨ds, hds, hlen, rfl⟩]
    rfl

end Numeral

end Linkage
