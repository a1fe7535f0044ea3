import Linkage.Proofs.Scanning.Separators
import Mathlib.Data.Nat.Find
import Mathlib.Logic.Function.Iterate

/-!
# Tokens — lines and columns

A scan finds the position of a token by walking over all characters before it.  The same position is
said here from the text alone: the tokens begin at the places where a run of alphanumeric characters
begins (`runStarts`), the line is one more than the number of line feeds before that place, and the
column is counted from behind the last of them (`lineStart`).

* `lexemes_eq`: the lexemes of a text are the runs at those places.
* `positionAt_eq`: walking over the characters before a place gives its line and column.
* `textFrom_positionAt`: read from the line and column of a place, the text is what stands there.
* `positionAt_before`: lines and columns ascend with the places.
* `LineTrack.scanl_moveTo`: line and line start are kept up to date by looking for line feeds behind
  the place looked at last; so tracking finds the positions of the scan
  (`LineTrack.positions_runStarts`).
* `lexemes_crlf`: a carriage return before each line feed moves no token.

`scan_positions` gathers them for the tokens of a text.
-/

namespace Linkage

variable {cs done w rest : List Char} {p q s : Nat}

theorem Position.advanceAll_append (r : Position) (xs ys : List Char) :
    r.advanceAll (xs ++ ys) = (r.advanceAll xs).advanceAll ys := List.foldl_append

/-! ### The places where runs begin -/

/-- A run of alphanumeric characters begins at place `p`: the character there is alphanumeric, and
the one before it, if there is one, is not. -/
def beginsRun (cs : List Char) (p : Nat) : Bool :=
  cs[p]?.any isAlphanumeric && !(decide (0 < p) && cs[p - 1]?.any isAlphanumeric)

/-- The places where runs begin, in order. -/
def runStarts (cs : List Char) : List Nat := (List.range cs.length).filter (beginsRun cs)

/-- The alphanumeric characters from place `p` on. -/
def runAt (cs : List Char) (p : Nat) : List Char := (cs.drop p).takeWhile isAlphanumeric

/-- The position of place `p`: where a walk over the characters before it ends. -/
def positionAt (cs : List Char) (p : Nat) : Position := Position.start.advanceAll (cs.take p)

/-- The lexeme at place `p`. -/
def lexemeAt (cs : List Char) (p : Nat) : Lexeme := ⟨positionAt cs p, runAt cs p⟩

theorem beginsRun_length (done rest : List Char) (c : Char) :
    beginsRun (done ++ c :: rest) done.length =
      (isAlphanumeric c && !done.getLast?.any isAlphanumeric) := by
  rcases List.eq_nil_or_concat done with rfl | ⟨init, d, rfl⟩ <;> simp [beginsRun]

/-- Of a word that stands behind no alphanumeric character the first place is the one place where a
run begins. -/
theorem filter_beginsRun (hw : IsWord w) (hdone : ∀ c ∈ done.getLast?, isAlphanumeric c = false) :
    (List.range' done.length w.length).filter (beginsRun (done ++ (w ++ rest))) =
      [done.length] := by
  obtain ⟨hne, hw⟩ := hw
  obtain ⟨c, w, rfl⟩ := List.exists_cons_of_ne_nil hne
  have hfirst : beginsRun (done ++ (c :: w ++ rest)) done.length = true := by
    rw [List.cons_append, beginsRun_length, hw c List.mem_cons_self]
    cases hlast : done.getLast? with
    | none => rfl
    | some d => simp [hdone d hlast]
  -- every other character of the word has an alphanumeric one before it
  have hothers : (List.range' (done.length + 1) w.length).filter
      (beginsRun (done ++ (c :: w ++ rest))) = [] := by
    rw [List.filter_eq_nil_iff]
    intro q hq
    rw [List.mem_range'_1] at hq
    obtain ⟨k, rfl⟩ : ∃ k, q = done.length + (k + 1) := ⟨q - done.length - 1, by omega⟩
    have hk : k < (c :: w).length := by rw [List.length_cons]; omega
    have hbefore : (done ++ (c :: w ++ rest))[done.length + k]? = some (c :: w)[k] := by
      rw [List.getElem?_append_right (Nat.le_add_right _ _), Nat.add_sub_cancel_left,
        List.getElem?_append_left hk, List.getElem?_eq_getElem hk]
    have halnum := hw _ (List.getElem_mem hk)
    rw [beginsRun, ← Nat.add_assoc, Nat.add_sub_cancel, hbefore, Option.any_some, halnum]
    simp
  rw [List.length_cons, List.range'_succ, List.filter_cons_of_pos hfirst, hothers]

theorem positionAt_length (done rest : List Char) :
    positionAt (done ++ rest) done.length = Position.start.advanceAll done := by
  rw [positionAt, List.take_left]

/-- The run at the place of a word is the word, when it ends there. -/
theorem runAt_length (hw : IsWord w) (hrest : ∀ c ∈ rest.head?, isAlphanumeric c = false) :
    runAt (done ++ (w ++ rest)) done.length = w := by
  have hend : rest.takeWhile isAlphanumeric = [] := by
    cases rest with
    | nil => rfl
    | cons c rest => exact List.takeWhile_cons_of_neg (Bool.eq_false_iff.1 (hrest c rfl))
  rw [runAt, List.drop_left, List.takeWhile_append_of_pos hw.2, hend, List.append_nil]

/-- The lexemes of what follows `done` are the runs that begin there. -/
theorem lexemes_eq_of_done (cs : List Char) : ∀ done,
    (∀ c ∈ done.getLast?, isAlphanumeric c = true → ∀ d ∈ cs.head?, isAlphanumeric d = false) →
      lexemes (Position.start.advanceAll done) cs =
        ((List.range' done.length cs.length).filter (beginsRun (done ++ cs))).map
          (lexemeAt (done ++ cs)) := by
  induction cs using runInduction with
  | nil => exact fun done _ => lexemes.eq_1 _
  | word w rest hw hrest ih =>
    intro done hdone
    have hlast : ∀ c ∈ done.getLast?, isAlphanumeric c = false := by
      intro c hc
      obtain ⟨d, w, rfl⟩ := List.exists_cons_of_ne_nil hw.1
      by_contra hc'
      have hd := hdone c hc ((Bool.not_eq_false _).mp hc') d rfl
      rw [hw.2 d List.mem_cons_self] at hd
      cases hd
    have hnext := ih (done ++ w) fun _ _ _ d hd => hrest d hd
    rw [Position.advanceAll_append, List.append_assoc, List.length_append] at hnext
    rw [lexemes_append hw.1 hw.2 hrest, hnext, List.length_append, ← List.range'_append_1,
      List.filter_append, filter_beginsRun hw hlast, List.singleton_append, List.map_cons, lexemeAt,
      positionAt_length, runAt_length hw hrest]
  | other c rest hc ih =>
    intro done hdone
    have hnot : ¬ beginsRun (done ++ c :: rest) done.length = true := by
      simp [beginsRun_length, hc]
    have hnext := ih (done ++ [c]) (by simp [hc])
    rw [Position.advanceAll_append, List.append_assoc, List.length_append] at hnext
    rw [lexemes_cons_of_not hc, List.length_cons, List.range'_succ, List.filter_cons_of_neg hnot]
    exact hnext

/-- **The lexemes of a text** are the runs at the places where one begins. -/
theorem lexemes_eq (cs : List Char) :
    lexemes Position.start cs = (runStarts cs).map (lexemeAt cs) := by
  have h := lexemes_eq_of_done cs [] (by simp)
  rwa [List.nil_append, List.length_nil, ← List.range_eq_range'] at h

example : runStarts "a_2\n b".toList = [0, 2, 5] := by decide

theorem lt_of_mem_runStarts (h : p ∈ runStarts cs) : p < cs.length :=
  List.mem_range.1 (List.mem_filter.1 h).1

theorem pairwise_runStarts (cs : List Char) : (runStarts cs).Pairwise (· < ·) :=
  List.pairwise_lt_range.filter _

/-! ### Lines and columns of places -/

theorem mem_window {c : Char} : c ∈ window cs s p ↔ ∃ q, s ≤ q ∧ q < p ∧ cs[q]? = some c := by
  simp only [window, List.mem_iff_getElem?, List.getElem?_drop, List.getElem?_take]
  constructor
  · rintro ⟨i, hi⟩
    split at hi
    · next hlt => exact ⟨s + i, Nat.le_add_right s i, hlt, hi⟩
    · cases hi
  · rintro ⟨q, hsq, hqp, hc⟩
    exact ⟨q - s, by rwa [Nat.add_sub_cancel' hsq, if_pos hqp]⟩

theorem take_append_window (hsp : s ≤ p) : cs.take s ++ window cs s p = cs.take p := by
  have h := List.take_append_drop s (cs.take p)
  rwa [List.take_take, Nat.min_eq_left hsp] at h

theorem window_append_drop (hsp : s ≤ p) (hp : p ≤ cs.length) :
    window cs s p ++ cs.drop p = cs.drop s := by
  have hlen : s ≤ (cs.take p).length := by rwa [List.length_take_of_le hp]
  rw [window, ← List.drop_append_of_le_length hlen, List.take_append_drop]

theorem behindLineFeed_eq (cs : List Char) (s p : Nat) :
    behindLineFeed cs s p = Nat.findGreatest (fun q => s < q ∧ cs[q - 1]? = some '\n') p := by
  induction p with
  | zero => rfl
  | succ p ih =>
    rw [behindLineFeed, Nat.findGreatest_succ, ih, Nat.add_sub_cancel]
    exact if_congr (and_congr_left' Nat.lt_succ_iff.symm) rfl rfl

/-- The place at which the line of place `p` begins. -/
def lineStart (cs : List Char) (p : Nat) : Nat := behindLineFeed cs 0 p

theorem lineStart_eq (cs : List Char) (p : Nat) :
    lineStart cs p = Nat.findGreatest (fun q => 0 < q ∧ cs[q - 1]? = some '\n') p :=
  behindLineFeed_eq cs 0 p

theorem lineStart_le (cs : List Char) (p : Nat) : lineStart cs p ≤ p :=
  lineStart_eq cs p ▸ Nat.findGreatest_le p

theorem lineStart_succ (cs : List Char) (p : Nat) :
    lineStart cs (p + 1) = if cs[p]? = some '\n' then p + 1 else lineStart cs p := by
  simp [lineStart, behindLineFeed]

/-- **Walking over the characters before a place gives its line and column.** -/
theorem positionAt_eq (hp : p ≤ cs.length) :
    positionAt cs p = ⟨1 + (cs.take p).count '\n', p - lineStart cs p + 1⟩ := by
  induction p with
  | zero => rfl
  | succ p ih =>
    have hle := lineStart_le cs p
    rw [positionAt, ← List.take_append_getElem hp, Position.advanceAll_append, ← positionAt,
      ih (Nat.le_of_succ_le hp), lineStart_succ, List.getElem?_eq_getElem hp, List.count_append]
    by_cases hc : cs[p] = '\n'
    · simp [Position.advance, hc, Nat.add_assoc]
    · simp [Position.advance, hc]
      omega

/-! ### The text read from a line and column -/

/-- The text behind its first line. -/
def dropLine (cs : List Char) : List Char := (cs.dropWhile (· != '\n')).drop 1

/-- The text from a line and a column on, both counted from one. -/
def textFrom (cs : List Char) (line column : Nat) : List Char :=
  (dropLine^[line - 1] cs).drop (column - 1)

/-- No line feed stands between the start of a line and a place in it. -/
theorem not_mem_window_lineStart (cs : List Char) (p : Nat) :
    '\n' ∉ window cs (lineStart cs p) p := by
  rw [mem_window]
  rintro ⟨q, hle, hq, hc⟩
  have hgreatest : q + 1 ≤ lineStart cs p :=
    lineStart_eq cs p ▸ Nat.le_findGreatest hq ⟨Nat.succ_pos q, hc⟩
  exact absurd hle (Nat.not_le.2 hgreatest)

/-- Behind as many lines as line feeds stand before a place, the line of that place begins. -/
theorem iterate_dropLine (hp : p ≤ cs.length) :
    dropLine^[(cs.take p).count '\n'] cs = cs.drop (lineStart cs p) := by
  induction p with
  | zero => rfl
  | succ p ih =>
    have ih := ih (Nat.le_of_succ_le hp)
    rw [← List.take_append_getElem hp, List.count_append, lineStart_succ,
      List.getElem?_eq_getElem hp]
    by_cases hc : cs[p] = '\n'
    · have hsplit := window_append_drop (lineStart_le cs p) (Nat.le_of_succ_le hp)
      rw [List.drop_eq_getElem_cons hp, hc] at hsplit
      have hline : ∀ c ∈ window cs (lineStart cs p) p, (c != '\n') = true := by
        intro c hmem
        simp only [bne_iff_ne]
        rintro rfl
        exact not_mem_window_lineStart cs p hmem
      rw [hc, List.count_singleton_self, Function.iterate_succ_apply', ih, dropLine, ← hsplit,
        List.dropWhile_append_of_pos hline]
      simp
    · simp [hc, ih]

/-- **Read from the line and column of a place, the text is what stands there.** -/
theorem textFrom_positionAt (hp : p ≤ cs.length) :
    textFrom cs (positionAt cs p).line (positionAt cs p).column = cs.drop p := by
  have hle := lineStart_le cs p
  rw [positionAt_eq hp, textFrom, Nat.add_sub_cancel_left, Nat.add_sub_cancel, iterate_dropLine hp,
    List.drop_drop, Nat.add_sub_cancel' hle]

/-! ### Positions ascend -/

/-- The first position is on an earlier line, or on the same line in an earlier column. -/
def Position.Before (a b : Position) : Prop :=
  a.line < b.line ∨ a.line = b.line ∧ a.column < b.column

theorem Position.Before.trans {a b c : Position} (h : a.Before b) (h' : b.Before c) :
    a.Before c := by
  unfold Before at *
  omega

theorem Position.before_advance (a : Position) (c : Char) : a.Before (a.advance c) := by
  unfold advance
  split
  · exact .inl (Nat.lt_succ_self _)
  · exact .inr ⟨rfl, Nat.lt_succ_self _⟩

/-- **Positions ascend with the places.** -/
theorem positionAt_before (hpq : p < q) (hq : q ≤ cs.length) :
    (positionAt cs p).Before (positionAt cs q) := by
  have hstep (k : Nat) (hk : k < cs.length) : (positionAt cs k).Before (positionAt cs (k + 1)) := by
    rw [positionAt, positionAt, ← List.take_append_getElem hk, Position.advanceAll_append]
    exact Position.before_advance _ _
  induction hpq with
  | refl => exact hstep p hq
  | step h ih => exact (ih (Nat.le_of_succ_le hq)).trans (hstep _ hq)

/-! ### Looking for line feeds behind the place looked at last -/

namespace LineTrack

/-- The line of place `p`, all before it looked at. -/
def upTo (cs : List Char) (p : Nat) : LineTrack :=
  ⟨1 + (cs.take p).count '\n', Linkage.lineStart cs p, p⟩

/-- Without a line feed in between, two places are on lines that begin at the same place. -/
theorem lineStart_eq_of_not_mem (hsp : s ≤ p) (h : '\n' ∉ window cs s p) :
    Linkage.lineStart cs p = Linkage.lineStart cs s := by
  rw [lineStart_eq cs p, lineStart_eq cs s]
  refine Nat.findGreatest_eq_iff.2 ⟨(Nat.findGreatest_le s).trans hsp, ?_, ?_⟩
  · exact fun hne => (Nat.findGreatest_eq_iff.1 rfl).2.1 hne
  · rintro q hlt hq ⟨hpos, hc⟩
    rcases Nat.lt_or_ge s q with hsq | hqs
    · exact h (mem_window.2 ⟨q - 1, by omega, by omega, hc⟩)
    · exact Nat.findGreatest_is_greatest hlt hqs ⟨hpos, hc⟩

/-- With a line feed in between, the later line begins behind the last one. -/
theorem behindLineFeed_eq_of_mem (h : '\n' ∈ window cs s p) :
    behindLineFeed cs s p = Linkage.lineStart cs p := by
  obtain ⟨q, hsq, hqp, hc⟩ := mem_window.1 h
  rw [behindLineFeed_eq, lineStart_eq]
  have hle := Nat.le_findGreatest (P := fun q => 0 < q ∧ cs[q - 1]? = some '\n') hqp
    ⟨Nat.succ_pos q, hc⟩
  refine Nat.findGreatest_eq_iff.2 ⟨Nat.findGreatest_le p, ?_, ?_⟩
  · intro hne
    exact ⟨by omega, ((Nat.findGreatest_eq_iff.1 rfl).2.1 hne).2⟩
  · rintro k hlt hk ⟨hpos, hck⟩
    exact Nat.findGreatest_is_greatest hlt hk ⟨Nat.zero_lt_of_lt hpos, hck⟩

/-- **One step**: to look behind the place looked at last misses no line feed and counts none
again. -/
theorem moveTo_upTo (hsp : s ≤ p) : (upTo cs s).moveTo cs p = upTo cs p := by
  have hcount : (cs.take p).count '\n' = (cs.take s).count '\n' + (window cs s p).count '\n' := by
    rw [← take_append_window hsp, List.count_append]
  rw [moveTo, upTo, upTo, hcount]
  by_cases h : '\n' ∈ window cs s p
  · have hpos := List.count_pos_iff.2 h
    simp only [if_neg (Nat.pos_iff_ne_zero.1 hpos), behindLineFeed_eq_of_mem h, Nat.add_assoc]
  · simp only [List.count_eq_zero.2 h, if_true, Nat.add_zero, lineStart_eq_of_not_mem hsp h]

/-- **A run of steps** over ascending places. -/
theorem scanl_moveTo {ps : List Nat} (hs : ∀ p ∈ ps, s ≤ p) (hps : ps.Pairwise (· < ·)) :
    ps.scanl (moveTo cs) (upTo cs s) = upTo cs s :: ps.map (upTo cs) := by
  induction ps generalizing s with
  | nil => rfl
  | cons p ps ih =>
    obtain ⟨hp, hps⟩ := List.pairwise_cons.1 hps
    rw [List.scanl_cons, moveTo_upTo (hs p List.mem_cons_self),
      ih (fun q hq => Nat.le_of_lt (hp q hq)) hps, List.map_cons]

/-- The positions found from place to place are those of a walk over all characters. -/
theorem positions_upTo {ps : List Nat} (hs : ∀ p ∈ ps, s ≤ p) (hps : ps.Pairwise (· < ·))
    (hlen : ∀ p ∈ ps, p ≤ cs.length) : (upTo cs s).positions cs ps = ps.map (positionAt cs) := by
  induction ps generalizing s with
  | nil => rfl
  | cons p ps ih =>
    obtain ⟨hp, hps⟩ := List.pairwise_cons.1 hps
    obtain ⟨hle, hlen⟩ := List.forall_mem_cons.1 hlen
    rw [positions, moveTo_upTo (hs p List.mem_cons_self), List.map_cons, positionAt_eq hle,
      ih (fun q hq => Nat.le_of_lt (hp q hq)) hps hlen]
    rfl

/-- **Tracking the lines finds the positions of the lexemes.** -/
theorem positions_runStarts (cs : List Char) :
    positions cs {} (runStarts cs) = (lexemes Position.start cs).map Lexeme.position := by
  rw [lexemes_eq, List.map_map]
  exact positions_upTo (fun p _ => Nat.zero_le p) (pairwise_runStarts cs)
    fun p hp => Nat.le_of_lt (lt_of_mem_runStarts hp)

end LineTrack

/-! ### Carriage returns -/

/-- The text with a carriage return before each line feed. -/
def crlf (cs : List Char) : List Char := cs.flatMap fun c => if c = '\n' then ['\r', '\n'] else [c]

theorem crlf_append (xs ys : List Char) : crlf (xs ++ ys) = crlf xs ++ crlf ys :=
  List.flatMap_append

theorem crlf_of_forall (h : ∀ c ∈ cs, isAlphanumeric c = true) : crlf cs = cs := by
  have hfeed : isAlphanumeric '\n' = false := by decide
  induction cs with
  | nil => rfl
  | cons c cs ih =>
    obtain ⟨hc, hcs⟩ := List.forall_mem_cons.1 h
    have hne : c ≠ '\n' := by
      rintro rfl
      rw [hfeed] at hc
      cases hc
    rw [crlf, List.flatMap_cons, if_neg hne, ← crlf, ih hcs]
    rfl

/-- A character that is not alphanumeric is still a gap with the carriage return, and the position
behind it is the same. -/
theorem crlf_singleton {c : Char} (hc : isAlphanumeric c = false) (r : Position) :
    IsGap (crlf [c]) ∧ crlf [c] ≠ [] ∧ r.advanceAll (crlf [c]) = r.advance c := by
  by_cases h : c = '\n'
  · subst h
    have hgap : IsGap ['\r', '\n'] :=
      List.forall_mem_cons.2 ⟨by decide, List.forall_mem_singleton.2 (by decide)⟩
    exact ⟨hgap, List.cons_ne_nil _ _, rfl⟩
  · have hsame : crlf [c] = [c] := by simp [crlf, h]
    rw [hsame]
    exact ⟨by simpa [IsGap] using hc, List.cons_ne_nil _ _, rfl⟩

/-- What does not begin with an alphanumeric character does not so with carriage returns either. -/
theorem head?_crlf (hrest : ∀ c ∈ rest.head?, isAlphanumeric c = false) :
    ∀ c ∈ (crlf rest).head?, isAlphanumeric c = false := by
  intro c hc
  cases rest with
  | nil => cases hc
  | cons d rest =>
    obtain ⟨hgap, hne, -⟩ := crlf_singleton (hrest d rfl) Position.start
    obtain ⟨x, xs, hx⟩ := List.exists_cons_of_ne_nil hne
    rw [← List.singleton_append, crlf_append, hx] at hc
    obtain rfl : x = c := Option.some.inj hc
    exact hgap x (hx ▸ List.mem_cons_self)

/-- **A carriage return before each line feed moves no lexeme.** -/
theorem lexemes_crlf (r : Position) (cs : List Char) : lexemes r (crlf cs) = lexemes r cs := by
  induction cs using runInduction generalizing r with
  | nil => rfl
  | word w rest hw hrest ih =>
    rw [crlf_append, crlf_of_forall hw.2, lexemes_append hw.1 hw.2 (head?_crlf hrest),
      lexemes_append hw.1 hw.2 hrest, ih]
  | other c rest hc ih =>
    obtain ⟨hgap, -, hadvance⟩ := crlf_singleton hc r
    rw [← List.singleton_append, crlf_append, lexemes_gap hgap, hadvance, ih, List.singleton_append,
      lexemes_cons_of_not hc]

/-! ### The tokens of a text -/

/-- The tokens of a text stand at the places where runs begin. -/
theorem getElem?_scan {source filename : String} {i : Nat} {t : Token}
    (h : (Token.scan source filename)[i]? = some t) :
    ∃ p, (runStarts source.toList)[i]? = some p ∧
      t = (lexemeAt source.toList p).token filename i := by
  rw [Token.scan, lexemes_eq, List.getElem?_map, List.getElem?_zipIdx, Option.map_map,
    Option.map_eq_some_iff] at h
  obtain ⟨l, hl, rfl⟩ := h
  rw [List.getElem?_map, Option.map_eq_some_iff] at hl
  obtain ⟨p, hp, rfl⟩ := hl
  exact ⟨p, hp, by simp⟩

/-- **The place of a token** gives its line and its column, and the text read from there begins with
the token. -/
theorem exists_place_of_getElem?_scan {source filename : String} {i : Nat} {t : Token}
    (h : (Token.scan source filename)[i]? = some t) :
    ∃ p, (runStarts source.toList)[i]? = some p ∧ t.chars = runAt source.toList p ∧
      t.location.line = 1 + (source.toList.take p).count '\n' ∧
        t.location.column = (p : Int) - lineStart source.toList p + 1 ∧
          t.chars <+: textFrom source.toList t.location.line.toNat t.location.column.toNat := by
  obtain ⟨p, hp, rfl⟩ := getElem?_scan h
  have hlt := Nat.le_of_lt (lt_of_mem_runStarts (List.mem_of_getElem? hp))
  have hle := lineStart_le source.toList p
  have hchars : ((lexemeAt source.toList p).token filename i).chars = runAt source.toList p :=
    Lexeme.chars_token ..
  have hline : ((lexemeAt source.toList p).token filename i).location.line =
      (positionAt source.toList p).line := rfl
  have hcolumn : ((lexemeAt source.toList p).token filename i).location.column =
      (positionAt source.toList p).column := rfl
  refine ⟨p, hp, hchars, ?_, ?_, ?_⟩
  · rw [hline, positionAt_eq hlt, Int.natCast_add]
    rfl
  · rw [hcolumn, positionAt_eq hlt, Int.natCast_add, Int.natCast_sub hle]
    rfl
  · rw [hchars, hline, hcolumn, Int.toNat_natCast, Int.toNat_natCast, textFrom_positionAt hlt]
    exact List.takeWhile_prefix _

/-- Lines and columns ascend from token to token. -/
theorem pairwise_location_scan (source filename : String) :
    (Token.scan source filename).Pairwise fun t u =>
      t.location.line < u.location.line ∨
        t.location.line = u.location.line ∧ t.location.column < u.location.column := by
  rw [List.pairwise_iff_getElem]
  intro i j hi hj hij
  obtain ⟨p, hp, ht⟩ := getElem?_scan (List.getElem?_eq_getElem hi)
  obtain ⟨q, hq, hu⟩ := getElem?_scan (List.getElem?_eq_getElem hj)
  obtain ⟨hi', rfl⟩ := List.getElem?_eq_some_iff.1 hp
  obtain ⟨hj', rfl⟩ := List.getElem?_eq_some_iff.1 hq
  have hlt := List.pairwise_iff_getElem.1 (pairwise_runStarts source.toList) i j hi' hj' hij
  have hle := Nat.le_of_lt (lt_of_mem_runStarts (List.getElem_mem hj'))
  rw [ht, hu]
  exact (positionAt_before hlt hle).imp Int.ofNat_lt.2 fun h =>
    ⟨congrArg Int.ofNat h.1, Int.ofNat_lt.2 h.2⟩

theorem scan_crlf (source filename : String) :
    Token.scan (String.ofList (crlf source.toList)) filename = Token.scan source filename := by
  rw [Token.scan, Token.scan, String.toList_ofList, lexemes_crlf]

/-- **Lines and columns are exact.**  The tokens of a text stand at the places where runs begin.  A
token at place `p` is on the line that as many line feeds precede as stand before `p`, in the column
counted from behind the last of them; so the text read from there begins with the token.  Positions
ascend from token to token.  A carriage return before each line feed changes no token.  And lines
are kept up to date by looking for line feeds behind the token before. -/
theorem scan_positions (source filename : String) :
    (∀ (i : Nat) (t : Token), (Token.scan source filename)[i]? = some t →
      ∃ p, (runStarts source.toList)[i]? = some p ∧ t.chars = runAt source.toList p ∧
        t.location.line = 1 + (source.toList.take p).count '\n' ∧
          t.location.column = (p : Int) - lineStart source.toList p + 1 ∧
            t.chars <+: textFrom source.toList t.location.line.toNat t.location.column.toNat) ∧
    ((Token.scan source filename).Pairwise fun t u =>
      t.location.line < u.location.line ∨
        t.location.line = u.location.line ∧ t.location.column < u.location.column) ∧
    Token.scan (String.ofList (crlf source.toList)) filename = Token.scan source filename ∧
    (runStarts source.toList).scanl (LineTrack.moveTo source.toList) {} =
      {} :: (runStarts source.toList).map (LineTrack.upTo source.toList) := by
  refine ⟨?_, ?_, ?_, ?_⟩
  · intro i t ht
    exact exists_place_of_getElem?_scan ht
  · exact pairwise_location_scan source filename
  · exact scan_crlf source filename
  · exact LineTrack.scanl_moveTo (fun p _ => Nat.zero_le p) (pairwise_runStarts _)

end Linkage
