import Linkage.Token
import Mathlib.Data.List.TakeWhile

/-!
# Tokens — what the tokens of a text are made of

A token is a run of alphanumeric characters, so it has at least one
(`chars_ne_nil_of_mem_scan`).  A text of nothing but alphanumeric characters is one token
(`scan_of_forall`), and a text of such words with a blank behind each is read as the words
(`map_chars_scan`).
-/

namespace Linkage

variable {p : Position} {cs : List Char}

@[simp] theorem Lexeme.chars_token (filename : String) (l : Lexeme) (i : Nat) :
    (l.token filename i).chars = l.chars := String.toList_ofList

/-- The characters of the tokens are those of the lexemes. -/
theorem map_chars_scan_eq (source filename : String) :
    (Token.scan source filename).map Token.chars =
      (lexemes Position.start source.toList).map Lexeme.chars := by
  have hchars : Token.chars ∘ (fun site : Lexeme × Nat => site.1.token filename site.2) =
      Lexeme.chars ∘ Prod.fst := funext fun _ => Lexeme.chars_token filename _ _
  rw [Token.scan, List.map_map, hchars, ← List.map_map, List.zipIdx_map_fst]

/-- A lexeme has a character. -/
theorem chars_ne_nil_of_mem_lexemes {l : Lexeme} (h : l ∈ lexemes p cs) : l.chars ≠ [] := by
  fun_induction lexemes p cs with
  | case1 => cases h
  | case2 p c cs hc run ih =>
    rcases List.mem_cons.1 h with rfl | h
    · exact List.cons_ne_nil c _
    · exact ih h
  | case3 p c cs hc ih => exact ih h

/-- The characters of a lexeme are alphanumeric. -/
theorem isAlphanumeric_of_mem_lexemes {l : Lexeme} (h : l ∈ lexemes p cs) :
    ∀ c ∈ l.chars, isAlphanumeric c = true := by
  fun_induction lexemes p cs with
  | case1 => cases h
  | case2 p c cs hc run ih =>
    rcases List.mem_cons.1 h with rfl | h
    · intro d hd
      rcases List.mem_cons.1 hd with rfl | hd
      · exact hc
      · exact List.mem_takeWhile_imp hd
    · exact ih h
  | case3 p c cs hc ih => exact ih h

/-- A token of a text has a character. -/
theorem chars_ne_nil_of_mem_scan {source filename : String} {t : Token}
    (h : t ∈ Token.scan source filename) : t.chars ≠ [] := by
  obtain ⟨⟨l, i⟩, hl, rfl⟩ := List.mem_map.1 h
  rw [Lexeme.chars_token]
  exact chars_ne_nil_of_mem_lexemes (List.fst_mem_of_mem_zipIdx hl)

/-- The characters of a token are alphanumeric. -/
theorem isAlphanumeric_of_mem_scan {source filename : String} {t : Token}
    (h : t ∈ Token.scan source filename) : ∀ c ∈ t.chars, isAlphanumeric c = true := by
  obtain ⟨⟨l, i⟩, hl, rfl⟩ := List.mem_map.1 h
  rw [Lexeme.chars_token]
  exact isAlphanumeric_of_mem_lexemes (List.fst_mem_of_mem_zipIdx hl)

/-- Alphanumeric characters are one lexeme when no other one follows them. -/
theorem lexemes_append (hcs : cs ≠ []) (h : ∀ c ∈ cs, isAlphanumeric c = true) {rest : List Char}
    (hrest : ∀ c ∈ rest.head?, isAlphanumeric c = false) :
    lexemes p (cs ++ rest) = ⟨p, cs⟩ :: lexemes (p.advanceAll cs) rest := by
  cases cs with
  | nil => exact absurd rfl hcs
  | cons c cs =>
    obtain ⟨hc, hcs⟩ := List.forall_mem_cons.1 h
    have hend : rest.takeWhile isAlphanumeric = [] ∧ rest.dropWhile isAlphanumeric = rest := by
      cases rest with
      | nil => exact ⟨rfl, rfl⟩
      | cons d rest =>
        have hd : isAlphanumeric d = false := hrest d rfl
        simp [hd]
    have htake : (cs ++ rest).takeWhile isAlphanumeric = cs := by
      rw [List.takeWhile_append_of_pos hcs, hend.1, List.append_nil]
    have hdrop : (cs ++ rest).dropWhile isAlphanumeric = rest := by
      rw [List.dropWhile_append_of_pos hcs, hend.2]
    rw [List.cons_append, lexemes, if_pos hc]
    simp only [htake, hdrop]

/-- Alphanumeric characters alone are one lexeme. -/
theorem lexemes_of_forall (hcs : cs ≠ []) (h : ∀ c ∈ cs, isAlphanumeric c = true) :
    lexemes p cs = [⟨p, cs⟩] := by
  have happ : lexemes p (cs ++ []) = _ := lexemes_append hcs h nofun
  rwa [List.append_nil, lexemes] at happ

/-- A text of alphanumeric characters is one token. -/
theorem scan_of_forall {filename : String} (hcs : cs ≠ [])
    (h : ∀ c ∈ cs, isAlphanumeric c = true) :
    Token.scan (String.ofList cs) filename =
      [Lexeme.token filename ⟨Position.start, cs⟩ 0] := by
  rw [Token.scan, String.toList_ofList, lexemes_of_forall hcs h]
  rfl

/-! ### Words with blanks behind them -/

/-- The characters of some words, a blank behind each of them. -/
def spaced (ws : List (List Char)) : List Char := ws.flatMap (· ++ [' '])

/-- Words with blanks behind them are the lexemes. -/
theorem map_chars_lexemes {ws : List (List Char)}
    (h : ∀ w ∈ ws, w ≠ [] ∧ ∀ c ∈ w, isAlphanumeric c = true) :
    (lexemes p (spaced ws)).map Lexeme.chars = ws := by
  have hblank : isAlphanumeric ' ' = false := by decide
  induction ws generalizing p with
  | nil => simp [spaced, lexemes]
  | cons w ws ih =>
    obtain ⟨⟨hw, hcs⟩, hws⟩ := List.forall_mem_cons.1 h
    have hsplit : spaced (w :: ws) = w ++ ' ' :: spaced ws := by simp [spaced]
    rw [hsplit, lexemes_append hw hcs (by simpa using hblank), lexemes, if_neg (by simp [hblank]),
      List.map_cons, ih hws]

/-- **A text of words is read as those words.** -/
theorem map_chars_scan {ws : List (List Char)} (filename : String)
    (h : ∀ w ∈ ws, w ≠ [] ∧ ∀ c ∈ w, isAlphanumeric c = true) :
    (Token.scan (String.ofList (spaced ws)) filename).map Token.chars = ws := by
  rw [map_chars_scan_eq, String.toList_ofList, map_chars_lexemes h]

end Linkage
