import Linkage.Proofs.Lines
import Linkage.Proofs.Scanning

/-!
# Tokens — the words of a text and the gaps around them

A text is taken apart run by run (`runInduction`): it is empty, or it begins with a word behind which
no alphanumeric character stands, or with another character.

A text is gaps and words in turn (`interleave`): words are runs of alphanumeric characters, gaps
hold no such character, and between two words the gap is not empty (`Separates`).  Every text is of
that form with the words that are scanned (`exists_separates`), the gaps can be told from the text
and the words (`Separates.unique`), and from any text of that form the words are scanned
(`map_chars_lexemes_interleave`).  So scanning loses no character, joins no two words and splits
none; `scan_separates` states it for the tokens of a text.
-/

namespace Linkage

/-- The characters of a word: at least one, and all of them alphanumeric. -/
def IsWord (w : List Char) : Prop := w ≠ [] ∧ ∀ c ∈ w, isAlphanumeric c = true

/-- The characters of a gap: none of them is alphanumeric. -/
def IsGap (g : List Char) : Prop := ∀ c ∈ g, isAlphanumeric c = false

/-- Gaps and words in turn, a gap first. -/
def interleave : List (List Char) → List (List Char) → List Char
  | [], _            => []
  | g :: _, []       => g
  | g :: gs, w :: ws => g ++ (w ++ interleave gs ws)

/-- The gaps stand around the words: one before each word and one behind the last, and those between
two words are not empty. -/
structure Separates (gaps words : List (List Char)) : Prop where
  length_eq : gaps.length = words.length + 1
  isGap : ∀ g ∈ gaps, IsGap g
  between : ∀ i, 0 < i → i < words.length → gaps[i]? ≠ some []

theorem isGap_nil : IsGap [] := fun _ hc => absurd hc List.not_mem_nil

variable {p : Position} {g w cs : List Char} {gaps gaps' words : List (List Char)}

/-! ### Texts run by run -/

/-- **Induction over a text, run by run.** -/
@[elab_as_elim]
theorem runInduction {P : List Char → Prop} (nil : P [])
    (word : ∀ w rest, IsWord w → (∀ c ∈ rest.head?, isAlphanumeric c = false) → P rest →
      P (w ++ rest))
    (other : ∀ c rest, isAlphanumeric c = false → P rest → P (c :: rest)) (cs : List Char) :
    P cs := by
  -- the cases are those of a scan, wherever it begins
  have h (p : Position) : P cs := by
    fun_induction lexemes p cs with
    | case1 => exact nil
    | case2 p c cs hc run ih =>
      have hsplit : c :: cs = run ++ cs.dropWhile isAlphanumeric := by
        rw [List.cons_append, List.takeWhile_append_dropWhile]
      have hrun : IsWord run := by
        refine ⟨List.cons_ne_nil c _, List.forall_mem_cons.2 ⟨hc, ?_⟩⟩
        intro d hd
        exact List.mem_takeWhile_imp hd
      rw [hsplit]
      refine word run _ hrun ?_ ih
      intro d hd
      simpa [Option.mem_def.1 hd] using List.head?_dropWhile_not isAlphanumeric cs
    | case3 p c cs hc ih => exact other c cs (Bool.eq_false_iff.2 hc) ih
  exact h Position.start

theorem lexemes_cons_of_not {c : Char} (hc : isAlphanumeric c = false) :
    lexemes p (c :: cs) = lexemes (p.advance c) cs := by
  rw [lexemes, if_neg (Bool.eq_false_iff.1 hc)]

/-- A gap before some characters only moves them. -/
theorem lexemes_gap (hg : IsGap g) (cs : List Char) :
    lexemes p (g ++ cs) = lexemes (p.advanceAll g) cs := by
  induction g generalizing p with
  | nil => rfl
  | cons c g ih =>
    obtain ⟨hc, hg⟩ := List.forall_mem_cons.1 hg
    rw [List.cons_append, lexemes_cons_of_not hc, ih hg, Position.advanceAll_cons]

/-! ### Gaps and words one by one -/

theorem separates_nil : Separates gaps [] ↔ ∃ g, gaps = [g] ∧ IsGap g := by
  constructor
  · intro h
    obtain ⟨g, rfl⟩ := List.length_eq_one_iff.1 h.length_eq
    exact ⟨g, rfl, h.isGap g List.mem_cons_self⟩
  · rintro ⟨g, rfl, hg⟩
    exact ⟨rfl, by simpa using hg, fun i _ hi => absurd hi (Nat.not_lt_zero i)⟩

theorem separates_cons : Separates gaps (w :: words) ↔
    ∃ g g' gs, gaps = g :: g' :: gs ∧ IsGap g ∧ Separates (g' :: gs) words ∧
      (words ≠ [] → g' ≠ []) := by
  constructor
  · intro h
    match gaps, h with
    | [], h | [g], h => have hlen := h.length_eq; simp at hlen
    | g :: g' :: gs, h =>
      refine ⟨g, g', gs, rfl, h.isGap g List.mem_cons_self, ⟨?_, ?_, ?_⟩, ?_⟩
      · simpa using h.length_eq
      · exact fun x hx => h.isGap x (List.mem_cons_of_mem g hx)
      · exact fun i _ hi => h.between (i + 1) (Nat.succ_pos i) (Nat.succ_lt_succ hi)
      · rintro hne rfl
        exact h.between 1 Nat.one_pos (Nat.succ_lt_succ (List.length_pos_iff.2 hne)) rfl
  · rintro ⟨g, g', gs, rfl, hg, h, hne⟩
    refine ⟨congrArg (· + 1) h.length_eq, List.forall_mem_cons.2 ⟨hg, h.isGap⟩, ?_⟩
    intro i hpos hi
    match i, hpos, hi with
    | 1, _, hi =>
      have hwords : words ≠ [] := List.length_pos_iff.1 (Nat.lt_of_succ_lt_succ hi)
      simpa using hne hwords
    | i + 2, _, hi => exact h.between (i + 1) (Nat.succ_pos i) (Nat.lt_of_succ_lt_succ hi)

/-- Behind a word no alphanumeric character follows. -/
theorem Separates.head?_interleave {g' : List Char} {gs : List (List Char)}
    (h : Separates (g' :: gs) words) (hne : words ≠ [] → g' ≠ []) :
    ∀ c ∈ (interleave (g' :: gs) words).head?, isAlphanumeric c = false := by
  have hg := h.isGap g' List.mem_cons_self
  intro c hc
  cases words with
  | nil => exact hg c (List.mem_of_mem_head? hc)
  | cons w ws =>
    obtain ⟨d, ds, rfl⟩ := List.exists_cons_of_ne_nil (hne (List.cons_ne_nil w ws))
    obtain rfl : d = c := Option.some.inj hc
    exact hg d List.mem_cons_self

/-- Any gap may stand before the first word. -/
theorem Separates.replace_head {g' : List Char} {gs : List (List Char)}
    (h : Separates (g :: gs) words) (hg' : IsGap g') : Separates (g' :: gs) words := by
  refine ⟨h.length_eq, ?_, ?_⟩
  · exact List.forall_mem_cons.2 ⟨hg', (List.forall_mem_cons.1 h.isGap).2⟩
  · intro i hpos hi
    obtain ⟨i, rfl⟩ := Nat.exists_eq_succ_of_ne_zero (Nat.pos_iff_ne_zero.1 hpos)
    exact h.between (i + 1) hpos hi

theorem interleave_cons_cons (c : Char) (g : List Char) (gs words : List (List Char)) :
    interleave ((c :: g) :: gs) words = c :: interleave (g :: gs) words := by
  cases words <;> rfl

/-! ### From a text to its gaps -/

/-- **Every text is gaps and words in turn**, the words being those scanned.  The first gap is not
empty where the text does not begin with a word. -/
theorem exists_separates (p : Position) (cs : List Char) :
    ∃ g gs, Separates (g :: gs) ((lexemes p cs).map Lexeme.chars) ∧
      interleave (g :: gs) ((lexemes p cs).map Lexeme.chars) = cs ∧
        ((∃ c ∈ cs.head?, isAlphanumeric c = false) → g ≠ []) := by
  induction cs using runInduction generalizing p with
  | nil =>
    rw [lexemes]
    exact ⟨[], [], separates_nil.2 ⟨[], rfl, isGap_nil⟩, rfl, by simp⟩
  | word w rest hw hrest ih =>
    obtain ⟨g, gs, hsep, htext, hne⟩ := ih (p.advanceAll w)
    -- a word behind this one would begin where this one ends, so there is a gap between them
    have hgap : (lexemes (p.advanceAll w) rest).map Lexeme.chars ≠ [] → g ≠ [] := by
      intro hwords
      refine hne ?_
      cases rest with
      | nil => simp [lexemes] at hwords
      | cons d ds => exact ⟨d, rfl, hrest d rfl⟩
    rw [lexemes_append hw.1 hw.2 hrest, List.map_cons]
    refine ⟨[], g :: gs, ?_, ?_, ?_⟩
    · exact separates_cons.2 ⟨[], g, gs, rfl, isGap_nil, hsep, hgap⟩
    · exact congrArg (w ++ ·) htext
    · rintro ⟨d, hd, hd'⟩
      obtain ⟨c, w, rfl⟩ := List.exists_cons_of_ne_nil hw.1
      obtain rfl : c = d := Option.some.inj hd
      rw [hw.2 c List.mem_cons_self] at hd'
      cases hd'
  | other c rest hc ih =>
    obtain ⟨g, gs, hsep, htext, -⟩ := ih (p.advance c)
    rw [lexemes_cons_of_not hc]
    refine ⟨c :: g, gs, ?_, ?_, fun _ => List.cons_ne_nil c g⟩
    · exact hsep.replace_head (List.forall_mem_cons.2 ⟨hc, hsep.isGap g List.mem_cons_self⟩)
    · rw [interleave_cons_cons, htext]

/-- **The gaps can be told** from the text and the words. -/
theorem Separates.unique (h : Separates gaps words) (h' : Separates gaps' words)
    (hw : ∀ w ∈ words, IsWord w) (he : interleave gaps words = interleave gaps' words) :
    gaps = gaps' := by
  induction words generalizing gaps gaps' with
  | nil =>
    obtain ⟨g, rfl, -⟩ := separates_nil.1 h
    obtain ⟨g', rfl, -⟩ := separates_nil.1 h'
    exact congrArg (fun g => [g]) he
  | cons w ws ih =>
    obtain ⟨g, g₁, gs, rfl, hg, hgs, -⟩ := separates_cons.1 h
    obtain ⟨g', g₁', gs', rfl, hg', hgs', -⟩ := separates_cons.1 h'
    obtain ⟨⟨hne, halnum⟩, hws⟩ := List.forall_mem_cons.1 hw
    -- the first character of the word is the first one that is in neither gap
    obtain ⟨c, w, rfl⟩ := List.exists_cons_of_ne_nil hne
    have hc : isAlphanumeric c = true := halnum c List.mem_cons_self
    have hnotMem {g : List Char} (hg : IsGap g) : c ∉ g := fun hmem => by
      rw [hg c hmem] at hc
      cases hc
    obtain ⟨rfl, hrest⟩ := eq_of_append_cons (hnotMem hg) (hnotMem hg') he
    rw [ih hgs hgs' hws (List.append_cancel_left hrest)]

/-! ### From words and gaps to the text -/

/-- **From gaps and words in turn the words are scanned.** -/
theorem map_chars_lexemes_interleave (h : Separates gaps words) (hw : ∀ w ∈ words, IsWord w) :
    (lexemes p (interleave gaps words)).map Lexeme.chars = words := by
  induction words generalizing p gaps with
  | nil =>
    obtain ⟨g, rfl, hg⟩ := separates_nil.1 h
    have hnone : lexemes p (g ++ []) = lexemes (p.advanceAll g) [] := lexemes_gap hg []
    rw [List.append_nil, lexemes] at hnone
    exact congrArg (List.map Lexeme.chars) hnone
  | cons w ws ih =>
    obtain ⟨g, g', gs, rfl, hg, hgs, hne⟩ := separates_cons.1 h
    obtain ⟨⟨hw, halnum⟩, hws⟩ := List.forall_mem_cons.1 hw
    show (lexemes p (g ++ (w ++ interleave (g' :: gs) ws))).map Lexeme.chars = w :: ws
    rw [lexemes_gap hg, lexemes_append hw halnum (hgs.head?_interleave hne), List.map_cons,
      ih hgs hws]

/-! ### The tokens of a text -/

/-- **Tokens are the maximal alphanumeric runs.**  The text of a token is a word, and its index is
its place.  The text is gaps and words in turn, where the words are those of the tokens and the gaps
are the only ones; and of whatever words and gaps a text is made, the tokens are those words. -/
theorem scan_separates (source filename : String) :
    (∀ t ∈ Token.scan source filename, IsWord t.chars ∧ '_' ∉ t.chars) ∧
    (∃! gaps, Separates gaps ((Token.scan source filename).map Token.chars) ∧
      interleave gaps ((Token.scan source filename).map Token.chars) = source.toList) ∧
    (∀ (i : Nat) (t : Token), (Token.scan source filename)[i]? = some t → t.index = i) ∧
    ∀ gaps words, Separates gaps words → (∀ w ∈ words, IsWord w) →
      (Token.scan (String.ofList (interleave gaps words)) filename).map Token.chars = words := by
  have hword : ∀ t ∈ Token.scan source filename, IsWord t.chars :=
    fun t ht => ⟨chars_ne_nil_of_mem_scan ht, isAlphanumeric_of_mem_scan ht⟩
  refine ⟨fun t ht => ⟨hword t ht, fun hmem => ?_⟩, ?_, fun i t ht => ?_, fun gaps words h hw => ?_⟩
  · have hunderscore : isAlphanumeric '_' = false := by decide
    rw [(hword t ht).2 '_' hmem] at hunderscore
    cases hunderscore
  · obtain ⟨g, gs, hsep, htext, -⟩ := exists_separates Position.start source.toList
    rw [← map_chars_scan_eq source filename] at hsep htext
    refine ⟨g :: gs, ⟨hsep, htext⟩, fun gaps' h' => ?_⟩
    exact h'.1.unique hsep (List.forall_mem_map.2 hword) (h'.2.trans htext.symm)
  · rw [Token.scan, List.getElem?_map, List.getElem?_zipIdx, Option.map_map,
      Option.map_eq_some_iff] at ht
    obtain ⟨l, -, rfl⟩ := ht
    exact congrArg Int.ofNat (Nat.zero_add i)
  · rw [map_chars_scan_eq, String.toList_ofList, map_chars_lexemes_interleave h hw]

/-- An underscore stands between two words, and a text may end with a gap. -/
theorem scan_separates_underscore :
    Separates [[], ['_'], [' ', '\n']] [['a'], ['b', '1']] ∧
      (∀ w ∈ [['a'], ['b', '1']], IsWord w) ∧
        (Token.scan "a_b1 \n" "-").map Token.chars = [['a'], ['b', '1']] := by
  have hunderscore : IsGap ['_'] := List.forall_mem_singleton.2 (by decide)
  have hblanks : IsGap [' ', '\n'] :=
    List.forall_mem_cons.2 ⟨by decide, List.forall_mem_singleton.2 (by decide)⟩
  have hsep : Separates [[], ['_'], [' ', '\n']] [['a'], ['b', '1']] := by
    refine separates_cons.2 ⟨_, _, _, rfl, isGap_nil, ?_, fun _ => List.cons_ne_nil _ _⟩
    exact separates_cons.2 ⟨_, _, _, rfl, hunderscore, separates_nil.2 ⟨_, rfl, hblanks⟩,
      fun hne => absurd rfl hne⟩
  have hw : ∀ w ∈ [['a'], ['b', '1']], IsWord w := by
    refine List.forall_mem_cons.2 ⟨⟨List.cons_ne_nil _ _, ?_⟩, List.forall_mem_singleton.2
      ⟨List.cons_ne_nil _ _, List.forall_mem_cons.2 ⟨by decide, ?_⟩⟩⟩
    · exact List.forall_mem_singleton.2 (by decide)
    · exact List.forall_mem_singleton.2 (by decide)
  have htext :
      String.ofList (interleave [[], ['_'], [' ', '\n']] [['a'], ['b', '1']]) = "a_b1 \n" := rfl
  have hscan := (scan_separates "" "-").2.2.2 _ _ hsep hw
  rw [htext] at hscan
  exact ⟨hsep, hw, hscan⟩

end Linkage
