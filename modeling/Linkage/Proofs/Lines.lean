import Linkage.Listing

/-!
# Lines — texts that can be taken apart

A listing joins lines, and sections of lines with a blank line between them.  Joined lines can be
told from the text when none of them holds a line feed (`joinLines_inj`).  Sections joined by blank
lines are lines themselves, the blank ones among them (`intercalate_joinLines`), so where no line of
a section is blank the sections can be told as well (`intercalate_joinLines_inj`).

Within a line, a part ends at the first separator when it does not hold one (`eq_of_append_cons`).
The text of a number holds digits and a sign alone, and the number can be told from it
(`toString_inj`).
-/

namespace Linkage

/-! ### Lists -/

section

variable {α β γ : Type} {a : α} {xs ys us vs : List α}

/-- Two lists that hold a separator agree before and behind the first one. -/
theorem eq_of_append_cons (hx : a ∉ xs) (hy : a ∉ ys) (h : xs ++ a :: us = ys ++ a :: vs) :
    xs = ys ∧ us = vs := by
  induction xs generalizing ys with
  | nil =>
    cases ys with
    | nil => exact ⟨rfl, (List.cons.inj h).2⟩
    | cons y ys => exact absurd ((List.cons.inj h).1 ▸ List.mem_cons_self) hy
  | cons x xs ih =>
    cases ys with
    | nil => exact absurd ((List.cons.inj h).1 ▸ List.mem_cons_self) hx
    | cons y ys =>
      obtain ⟨rfl, htail⟩ := List.cons.inj h
      obtain ⟨rfl, rfl⟩ := ih (fun hm => hx (List.mem_cons_of_mem _ hm))
        (fun hm => hy (List.mem_cons_of_mem _ hm)) htail
      exact ⟨rfl, rfl⟩

/-- What can be told of each element from its image can be told of a list from the images. -/
theorem map_eq_map_of_forall {f : α → β} {g : α → γ} {P : α → Prop}
    (hg : ∀ x y, P x → P y → f x = f y → g x = g y) (hx : ∀ x ∈ xs, P x) (hy : ∀ y ∈ ys, P y)
    (h : xs.map f = ys.map f) : xs.map g = ys.map g := by
  induction xs generalizing ys with
  | nil => rw [List.map_eq_nil_iff.1 h.symm]
  | cons x xs ih =>
    cases ys with
    | nil => cases h
    | cons y ys =>
      obtain ⟨hxP, hx⟩ := List.forall_mem_cons.1 hx
      obtain ⟨hyP, hy⟩ := List.forall_mem_cons.1 hy
      obtain ⟨hhead, htail⟩ := List.cons.inj h
      rw [List.map_cons, List.map_cons, hg x y hxP hyP hhead, ih hx hy htail]

/-- Lists joined with a separator, in two parts. -/
theorem intercalate_append {sep : List α} {ls ls' : List (List α)} (h : ls ≠ []) (h' : ls' ≠ []) :
    sep.intercalate (ls ++ ls') = sep.intercalate ls ++ sep ++ sep.intercalate ls' := by
  induction ls with
  | nil => exact absurd rfl h
  | cons l ls ih =>
    cases ls with
    | nil => rw [List.singleton_append, List.intercalate_cons_of_ne_nil h',
        List.intercalate_singleton]
    | cons l₁ ls =>
      rw [List.cons_append, List.intercalate_cons_of_ne_nil (List.append_ne_nil_of_left_ne_nil
        (List.cons_ne_nil l₁ ls) ls'), ih (List.cons_ne_nil l₁ ls), List.intercalate_cons_cons]
      simp only [List.append_assoc]

theorem intercalate_ne_nil {sep : List α} {ls : List (List α)} (h : ∀ l ∈ ls, l ≠ [])
    (hne : ls ≠ []) : sep.intercalate ls ≠ [] := by
  cases ls with
  | nil => exact absurd rfl hne
  | cons l ls =>
    have hl := h l List.mem_cons_self
    cases ls with
    | nil => rwa [List.intercalate_singleton]
    | cons _ _ =>
      rw [List.intercalate_cons_cons, List.append_assoc]
      exact List.append_ne_nil_of_left_ne_nil hl _

/-- An element of joined lists is one of the separator or of a list. -/
theorem mem_intercalate {sep : List α} {ls : List (List α)} (h : a ∈ sep.intercalate ls) :
    a ∈ sep ∨ ∃ l ∈ ls, a ∈ l := by
  induction ls with
  | nil => cases h
  | cons l ls ih =>
    cases ls with
    | nil =>
      rw [List.intercalate_singleton] at h
      exact .inr ⟨l, List.mem_cons_self, h⟩
    | cons l₁ ls =>
      rw [List.intercalate_cons_cons, List.mem_append, List.mem_append] at h
      rcases h with (h | h) | h
      · exact .inr ⟨l, List.mem_cons_self, h⟩
      · exact .inl h
      · obtain h | ⟨l', hl', h⟩ := ih h
        · exact .inl h
        · exact .inr ⟨l', List.mem_cons_of_mem _ hl', h⟩

/-- Lists joined by a separator that none of them holds. -/
theorem intercalate_singleton_inj [BEq α] [LawfulBEq α] {ls ls' : List (List α)}
    (hl : ∀ l ∈ ls, a ∉ l) (hl' : ∀ l ∈ ls', a ∉ l) (hne : ls ≠ []) (hne' : ls' ≠ [])
    (h : [a].intercalate ls = [a].intercalate ls') : ls = ls' := by
  rw [← List.splitOn_intercalate a hl hne, h, List.splitOn_intercalate a hl' hne']

end

/-! ### Joined lines -/

/-- The text is one line, and not a blank one. -/
def IsLine (text : String) : Prop := text ≠ "" ∧ '\n' ∉ text.toList

theorem IsLine.append {text rest : String} (h : IsLine text) (hr : '\n' ∉ rest.toList) :
    IsLine (text ++ rest) := by
  refine ⟨fun hempty => h.1 (String.append_eq_empty_iff.1 hempty).1, ?_⟩
  rw [String.toList_append, List.mem_append, not_or]
  exact ⟨h.2, hr⟩

section

variable {lines lines' : List String} {sections sections' : List (List String)}

theorem toList_joinLines (lines : List String) :
    (joinLines lines).toList = ['\n'].intercalate (lines.map String.toList) :=
  String.toList_intercalate

/-- **Lines can be told from their text** where none of them holds a line feed. -/
theorem joinLines_inj (hl : ∀ l ∈ lines, '\n' ∉ l.toList) (hl' : ∀ l ∈ lines', '\n' ∉ l.toList)
    (hne : lines ≠ []) (hne' : lines' ≠ []) (h : joinLines lines = joinLines lines') :
    lines = lines' := by
  have hchars := congrArg String.toList h
  rw [toList_joinLines, toList_joinLines] at hchars
  have hlists := intercalate_singleton_inj (List.forall_mem_map.2 hl) (List.forall_mem_map.2 hl')
    (mt List.map_eq_nil_iff.1 hne) (mt List.map_eq_nil_iff.1 hne') hchars
  exact (List.map_inj_right fun _ _ => String.toList_inj.1).1 hlists

theorem joinLines_append (hne : lines ≠ []) (hne' : lines' ≠ []) :
    joinLines (lines ++ lines') = joinLines lines ++ "\n" ++ joinLines lines' := by
  rw [← String.toList_inj]
  simp only [toList_joinLines, String.toList_append, List.map_append]
  exact intercalate_append (mt List.map_eq_nil_iff.1 hne) (mt List.map_eq_nil_iff.1 hne')

/-- Sections with blank lines between them are lines. -/
theorem intercalate_joinLines (h : ∀ lines ∈ sections, lines ≠ []) :
    "\n\n".intercalate (sections.map joinLines) = joinLines ([""].intercalate sections) := by
  induction sections with
  | nil => rfl
  | cons lines sections ih =>
    obtain ⟨hlines, hsections⟩ := List.forall_mem_cons.1 h
    cases sections with
    | nil => rw [List.intercalate_singleton, List.map_singleton, String.intercalate_singleton]
    | cons lines' sections =>
      have hrest : [""].intercalate (lines' :: sections) ≠ [] :=
        intercalate_ne_nil hsections (List.cons_ne_nil _ _)
      have hblank : joinLines ([""] ++ [""].intercalate (lines' :: sections)) =
          "\n" ++ joinLines ([""].intercalate (lines' :: sections)) := by
        rw [joinLines_append (List.cons_ne_nil _ _) hrest]
        rfl
      rw [List.intercalate_cons_cons, List.append_assoc, joinLines_append hlines
        (List.append_ne_nil_of_left_ne_nil (List.cons_ne_nil _ _) _), hblank,
        ← ih hsections, List.map_cons, List.map_cons, String.intercalate_cons_cons]
      have hblanks : "\n\n" = "\n" ++ "\n" := rfl
      simp only [hblanks, String.append_assoc]

/-- **Sections can be told from their text** where their lines are not blank. -/
theorem intercalate_joinLines_inj
    (hs : ∀ lines ∈ sections, lines ≠ [] ∧ ∀ l ∈ lines, IsLine l)
    (hs' : ∀ lines ∈ sections', lines ≠ [] ∧ ∀ l ∈ lines, IsLine l)
    (hne : sections ≠ []) (hne' : sections' ≠ [])
    (h : "\n\n".intercalate (sections.map joinLines) =
      "\n\n".intercalate (sections'.map joinLines)) : sections = sections' := by
  rw [intercalate_joinLines fun lines hl => (hs lines hl).1,
    intercalate_joinLines fun lines hl => (hs' lines hl).1] at h
  have hfeed {sections : List (List String)}
      (hs : ∀ lines ∈ sections, lines ≠ [] ∧ ∀ l ∈ lines, IsLine l) :
      ∀ l ∈ [""].intercalate sections, '\n' ∉ l.toList := by
    intro l hl
    rcases mem_intercalate hl with hl | ⟨lines, hlines, hl⟩
    · rw [List.mem_singleton.1 hl]
      exact List.not_mem_nil
    · exact ((hs lines hlines).2 l hl).2
  have hblank {sections : List (List String)}
      (hs : ∀ lines ∈ sections, lines ≠ [] ∧ ∀ l ∈ lines, IsLine l) :
      ∀ lines ∈ sections, "" ∉ lines :=
    fun lines hlines hmem => ((hs lines hlines).2 "" hmem).1 rfl
  have hlines := joinLines_inj (hfeed hs) (hfeed hs')
    (intercalate_ne_nil (fun lines hl => (hs lines hl).1) hne)
    (intercalate_ne_nil (fun lines hl => (hs' lines hl).1) hne') h
  exact intercalate_singleton_inj (hblank hs) (hblank hs') hne hne' hlines

end

/-! ### Numbers -/

theorem toList_toString (a : Int) :
    (toString a).toList =
      if 0 ≤ a then Nat.toDigits 10 a.toNat else '-' :: Nat.toDigits 10 (-a).toNat := by
  show a.repr.toList = _
  rw [Int.repr_eq_if]
  split
  · exact Nat.toList_repr
  · rw [String.toList_append, Nat.toList_repr]
    rfl

/-- The text of a number holds digits and a sign. -/
theorem notMem_toString {c : Char} (hd : c.isDigit = false) (hm : c ≠ '-') (a : Int) :
    c ∉ (toString a).toList := by
  have hdigits (n : Nat) : c ∉ Nat.toDigits 10 n := by
    intro h
    rw [Nat.isDigit_of_mem_toDigits (by decide) (by decide) h] at hd
    cases hd
  rw [toList_toString]
  split
  · exact hdigits _
  · rw [List.mem_cons, not_or]
    exact ⟨hm, hdigits _⟩

/-- The text of a number is a line. -/
theorem isLine_toString (a : Int) : IsLine (toString a) := by
  refine ⟨fun hempty => ?_, notMem_toString (by decide) (by decide) a⟩
  have hchars := congrArg String.toList hempty
  rw [toList_toString] at hchars
  split at hchars
  · exact Nat.toDigits_ne_nil hchars
  · cases hchars

theorem IsLine.append_toString {label : String} (h : IsLine label) (a : Int) :
    IsLine (label ++ toString a) := h.append (isLine_toString a).2

/-- **A number can be told from its text.** -/
theorem toString_inj {a b : Int} (h : toString a = toString b) : a = b := by
  have hdigits {n k : Nat} (h : Nat.toDigits 10 n = Nat.toDigits 10 k) : n = k := by
    rw [← Nat.ofDigitChars_ten_toDigits (n := n), h, Nat.ofDigitChars_ten_toDigits]
  have hsign {n : Nat} {cs : List Char} : Nat.toDigits 10 n ≠ '-' :: cs := fun h => by
    have hmem : '-' ∈ Nat.toDigits 10 n := h ▸ List.mem_cons_self
    exact absurd (Nat.isDigit_of_mem_toDigits (by decide) (by decide) hmem) (by decide)
  have hchars := congrArg String.toList h
  rw [toList_toString, toList_toString] at hchars
  split at hchars
  · split at hchars
    · have := hdigits hchars
      omega
    · exact absurd hchars hsign
  · split at hchars
    · exact absurd hchars.symm hsign
    · have := hdigits (List.cons.inj hchars).2
      omega

end Linkage
