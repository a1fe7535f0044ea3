import Linkage.Proofs.Lines
import Linkage.Proofs.Link
import Linkage.Proofs.Scanning

/-!
# Listings — what can be told from one

A listing is lines: those of each module, of the table and of the memory map, with a blank line
between two sections.  No line is blank and none holds a line feed, so the sections can be told from
the text (`lines_eq_of_listing_eq`), whatever the names are; and each line gives up what it shows.

* A name is alphanumeric, so it ends at the equals sign (`symbolLine_inj`).
* An instruction shows its word as read and, behind an arrow, its word where that may be another one.
  The word as read is an opcode and an address below the radix (`Instruction.view_eq_of_listing_eq`).
* The counts in a dump say where its definitions, uses and instructions end
  (`Module.view_eq_of_lines_eq`).

`Listable` says what a result must satisfy for that, and the result of a link is
(`listable_of_linkText`).  So **a listing loses nothing of a link** (`listing_injective`) but where
its parts were read.
-/

namespace Linkage

/-! ### What a listing shows -/

/-- What a dump shows of an instruction. -/
structure Instruction.View where
  classification : Classification
  opcode : Int
  asRead : Int
  relocated : Bool
  word : Int
  deriving DecidableEq, Repr

def Instruction.view (x : Instruction) : View :=
  ⟨x.classification, x.opcode, x.asRead, x.relocated, x.word⟩

/-- What a dump shows of a module. -/
structure Module.View where
  index : Nat
  start : Nat
  length : Nat
  /-- The names with their addresses in the program. -/
  definitions : List (String × Option Int)
  uses : List String
  instructions : List Instruction.View
  deriving DecidableEq, Repr

def Module.view (m : Module) : View where
  index := m.index
  start := m.start
  length := m.length
  definitions := m.definitions.map fun d => (d.name, d.absolute)
  uses := m.uses.map Use.name
  instructions := m.instructions.map Instruction.view

/-! ### Lines of a listing -/

/-- A name that is written by a token: it has characters, and they are alphanumeric. -/
def IsName (name : String) : Prop := name.toList ≠ [] ∧ ∀ c ∈ name.toList, isAlphanumeric c = true

theorem IsName.notMem {name : String} (h : IsName name) {c : Char} (hc : isAlphanumeric c = false) :
    c ∉ name.toList := fun hm => by
  rw [h.2 c hm] at hc
  cases hc

theorem IsName.isLine {name : String} (h : IsName name) : IsLine name := by
  refine ⟨fun hempty => h.1 (by rw [hempty]; rfl), h.notMem (by decide)⟩

/-- What is needed of an instruction for its line to show it. -/
structure Instruction.Listable (x : Instruction) : Prop where
  asRead : 0 ≤ x.asRead ∧ x.asRead < wordRadix
  kept : x.relocated = false → x.address = x.asRead

/-- What is needed of a module for its dump to show it. -/
structure Module.Listable (m : Module) : Prop where
  definitions : ∀ d ∈ m.definitions, IsName d.name ∧ ∃ a, d.absolute = some a
  uses : ∀ u ∈ m.uses, IsName u.name
  instructions : ∀ x ∈ m.instructions, x.Listable

/-- The line of a symbol. -/
def symbolLine (name : String) (address : Int) : String := s!"{name}={address}"

theorem toList_symbolLine (name : String) (a : Int) :
    (symbolLine name a).toList = name.toList ++ '=' :: (toString a).toList := by
  show (name ++ "=" ++ toString a).toList = _
  rw [String.toList_append, String.toList_append, List.append_assoc]
  rfl

/-- A name and an address can be told from their line. -/
theorem symbolLine_inj {name name' : String} {a a' : Int} (h : IsName name) (h' : IsName name')
    (heq : symbolLine name a = symbolLine name' a') : name = name' ∧ a = a' := by
  have hchars := congrArg String.toList heq
  rw [toList_symbolLine, toList_symbolLine] at hchars
  obtain ⟨hname, ha⟩ := eq_of_append_cons (h.notMem (by decide)) (h'.notMem (by decide)) hchars
  exact ⟨String.toList_inj.1 hname, toString_inj (String.toList_inj.1 ha)⟩

theorem isLine_symbolLine {name : String} (h : IsName name) (a : Int) :
    IsLine (symbolLine name a) := by
  show IsLine (name ++ "=" ++ toString a)
  exact (h.isLine.append (by decide)).append_toString a

/-- The line of a word. -/
def wordLine (address : Nat) (word : Int) : String := s!"{address}:\t{word}"

theorem toList_wordLine (a : Nat) (w : Int) :
    (wordLine a w).toList = (toString (a : Int)).toList ++ ':' :: '\t' :: (toString w).toList := by
  show (toString (a : Int) ++ ":\t" ++ toString w).toList = _
  rw [String.toList_append, String.toList_append, List.append_assoc]
  rfl

theorem wordLine_inj {a a' : Nat} {w w' : Int} (h : wordLine a w = wordLine a' w') :
    a = a' ∧ w = w' := by
  have hchars := congrArg String.toList h
  rw [toList_wordLine, toList_wordLine] at hchars
  obtain ⟨ha, hw⟩ := eq_of_append_cons (notMem_toString (by decide) (by decide) _)
    (notMem_toString (by decide) (by decide) _) hchars
  exact ⟨Int.ofNat_inj.1 (toString_inj (String.toList_inj.1 ha)),
    toString_inj (String.toList_inj.1 (List.cons.inj hw).2)⟩

theorem isLine_wordLine (a : Nat) (w : Int) : IsLine (wordLine a w) := by
  show IsLine (toString (a : Int) ++ ":\t" ++ toString w)
  exact ((isLine_toString a).append (by decide)).append_toString w

/-! ### Instructions -/

theorem Classification.letter_inj {k k' : Classification} (h : k.letter = k'.letter) : k = k' :=
  Option.some.inj (by rw [← ofLetter?_letter k, h, ofLetter?_letter])

namespace Instruction

variable {x y : Instruction}

theorem toList_listing (x : Instruction) : x.listing.toList =
    '\t' :: x.classification.letter :: ':' :: ' ' :: ((toString x.wordAsRead).toList ++
      if x.relocated then ' ' :: '-' :: '>' :: ' ' :: (toString x.word).toList else []) := by
  have hbefore : (s!"\t{x.classification.letter}: {x.wordAsRead}").toList =
      '\t' :: x.classification.letter :: ':' :: ' ' :: (toString x.wordAsRead).toList := by
    show ("\t" ++ String.singleton x.classification.letter ++ ": " ++ toString x.wordAsRead).toList = _
    simp only [String.toList_append, String.toList_singleton]
    rfl
  have hafter : (s!" -> {x.word}").toList = ' ' :: '-' :: '>' :: ' ' :: (toString x.word).toList := by
    show (" -> " ++ toString x.word).toList = _
    rw [String.toList_append]
    rfl
  unfold listing
  cases x.relocated with
  | false => rw [if_neg Bool.false_ne_true, hbefore, if_neg Bool.false_ne_true, List.append_nil]
  | true =>
    rw [if_pos rfl, String.toList_append, hbefore, hafter, if_pos rfl]
    rfl

/-- The digits of a word as read end where the text does or at a blank. -/
theorem eq_of_append_digits {a b : Int} {cs ds : List Char} {p q : Bool}
    (h : (toString a).toList ++ (if p then ' ' :: cs else []) =
      (toString b).toList ++ if q then ' ' :: ds else []) :
    a = b ∧ p = q ∧ (p = true → cs = ds) := by
  have hblank (a : Int) : ' ' ∉ (toString a).toList := notMem_toString (by decide) (by decide) a
  cases p <;> cases q
  · simp only [Bool.false_eq_true, if_false, List.append_nil] at h
    exact ⟨toString_inj (String.toList_inj.1 h), rfl, nofun⟩
  · simp only [Bool.false_eq_true, if_false, if_true, List.append_nil] at h
    exact absurd (h ▸ List.mem_append_right _ List.mem_cons_self) (hblank a)
  · simp only [Bool.false_eq_true, if_false, if_true, List.append_nil] at h
    exact absurd (h ▸ List.mem_append_right _ List.mem_cons_self) (hblank b)
  · simp only [if_true] at h
    obtain ⟨hdigits, hrest⟩ := eq_of_append_cons (hblank a) (hblank b) h
    exact ⟨toString_inj (String.toList_inj.1 hdigits), rfl, fun _ => hrest⟩

/-- **An instruction can be told from its line.** -/
theorem view_eq_of_listing_eq (hx : x.Listable) (hy : y.Listable) (h : x.listing = y.listing) :
    x.view = y.view := by
  have hchars := congrArg String.toList h
  rw [toList_listing, toList_listing] at hchars
  simp only [List.cons.injEq, true_and] at hchars
  obtain ⟨hletter, hrest⟩ := hchars
  obtain ⟨hread, hrelocated, hafter⟩ := eq_of_append_digits hrest
  -- the word as read is an opcode and an address below the radix
  have hparts : x.opcode = y.opcode ∧ x.asRead = y.asRead := by
    have hx₀ := hx.asRead
    have hy₀ := hy.asRead
    unfold wordAsRead at hread
    unfold wordRadix at hread hx₀ hy₀
    omega
  have hword : x.word = y.word := by
    cases hr : x.relocated with
    | true =>
      have hdigits := hafter hr
      simp only [List.cons.injEq, true_and] at hdigits
      exact toString_inj (String.toList_inj.1 hdigits)
    | false => rw [word, hx.kept hr, word, hy.kept (hrelocated ▸ hr), hparts.1, hparts.2]
  rw [view, Classification.letter_inj hletter, hparts.1, hparts.2, hrelocated, hword]
  rfl

theorem isLine_listing (x : Instruction) : IsLine x.listing := by
  have hletter : '\n' ∉ (String.singleton x.classification.letter).toList := by
    cases x.classification <;> decide
  have hbefore : IsLine s!"\t{x.classification.letter}: {x.wordAsRead}" := by
    show IsLine ("\t" ++ String.singleton x.classification.letter ++ ": " ++ toString x.wordAsRead)
    have htab : IsLine "\t" := ⟨by decide, by decide⟩
    exact ((htab.append hletter).append (by decide)).append_toString _
  have hafter : IsLine s!" -> {x.word}" := by
    show IsLine (" -> " ++ toString x.word)
    exact IsLine.append_toString ⟨by decide, by decide⟩ _
  unfold listing
  split
  · exact hbefore.append hafter.2
  · exact hbefore

end Instruction

/-! ### Modules -/

namespace Module

variable {m m' : Module}

/-- The lines of a dump. -/
def lines (m : Module) : List String :=
  s!"Module {m.index}" :: s!"Start: {m.start}" :: s!"End: {m.endLocation}" ::
    s!"Length: {m.length}" :: s!"Defs: {m.definitions.length}" ::
      (m.definitions.map (fun d => "\t" ++ d.text) ++ s!"Uses: {m.uses.length}" ::
        (m.uses.map (fun u => "\t" ++ u.name) ++ s!"Text: {m.length}" ::
          m.instructions.map Instruction.listing))

theorem listing_eq (m : Module) : m.listing = joinLines m.lines := by
  simp only [listing, lines, List.cons_append, List.nil_append, List.append_assoc]

theorem labelled_inj {label : String} {n k : Nat} (h : label ++ toString n = label ++ toString k) :
    n = k := by
  have hn : toString (n : Int) = toString (k : Int) := (String.append_right_inj label).1 h
  exact Int.ofNat_inj.1 (toString_inj hn)

theorem isLine_lines (h : m.Listable) : ∀ l ∈ m.lines, IsLine l := by
  have hlabel {label : String} (hl : IsLine label) (n : Int) : IsLine (label ++ toString n) :=
    hl.append_toString n
  have htab {text : String} (ht : '\n' ∉ text.toList) : IsLine ("\t" ++ text) :=
    IsLine.append ⟨by decide, by decide⟩ ht
  simp only [lines, List.forall_mem_cons, List.forall_mem_append, List.forall_mem_map]
  refine ⟨hlabel ⟨by decide, by decide⟩ m.index, hlabel ⟨by decide, by decide⟩ m.start,
    hlabel ⟨by decide, by decide⟩ m.endLocation, hlabel ⟨by decide, by decide⟩ m.length,
    hlabel ⟨by decide, by decide⟩ m.definitions.length, fun d hd => ?_,
    hlabel ⟨by decide, by decide⟩ m.uses.length, fun u hu => htab (h.uses u hu).isLine.2,
    hlabel ⟨by decide, by decide⟩ m.length, fun x _ => x.isLine_listing⟩
  obtain ⟨hname, a, ha⟩ := h.definitions d hd
  rw [Definition.text, ha]
  exact htab (isLine_symbolLine hname a).2

/-- **A module can be told from its dump.** -/
theorem view_eq_of_lines_eq (hm : m.Listable) (hm' : m'.Listable) (h : m.lines = m'.lines) :
    m.view = m'.view := by
  unfold lines at h
  simp only [List.cons.injEq] at h
  obtain ⟨hindex, hstart, -, hlength, hcount, h⟩ := h
  obtain ⟨hdefinitions, h⟩ := List.append_inj h (by
    rw [List.length_map, List.length_map]; exact labelled_inj hcount)
  obtain ⟨husecount, h⟩ := List.cons.inj h
  obtain ⟨huses, h⟩ := List.append_inj h (by
    rw [List.length_map, List.length_map]; exact labelled_inj husecount)
  have hinstructions := (List.cons.inj h).2
  have hnames := map_eq_map_of_forall (g := fun d => (d.name, d.absolute))
    (P := fun d : Definition => IsName d.name ∧ ∃ a, d.absolute = some a) (fun d d' hd hd' h => ?_)
    hm.definitions hm'.definitions hdefinitions
  · have husenames := map_eq_map_of_forall (g := Use.name) (P := fun _ => True)
      (fun u u' _ _ h => (String.append_right_inj "\t").1 h) (fun _ _ => trivial)
      (fun _ _ => trivial) huses
    have hviews := map_eq_map_of_forall (g := Instruction.view)
      (fun x y hx hy h => Instruction.view_eq_of_listing_eq hx hy h) hm.instructions
      hm'.instructions hinstructions
    simp only [view, View.mk.injEq]
    exact ⟨labelled_inj hindex, labelled_inj hstart, labelled_inj hlength, hnames, husenames,
      hviews⟩
  · obtain ⟨hname, a, ha⟩ := hd
    obtain ⟨hname', a', ha'⟩ := hd'
    have htext := (String.append_right_inj "\t").1 h
    rw [Definition.text, Definition.text, ha, ha'] at htext
    obtain ⟨hn, haddress⟩ := symbolLine_inj hname hname' htext
    simp only [hn, ha, ha', haddress]

end Module

/-! ### Sections -/

/-- The lines of a symbol table. -/
def SymbolTable.lines (t : SymbolTable) : List String := "Symbol Table" :: t.entries.map Entry.text

/-- The lines of a memory map. -/
def MemoryMap.lines (w : MemoryMap) : List String :=
  "Memory Map" :: w.pairs.map fun pair => wordLine pair.1 pair.2

theorem SymbolTable.listing_eq (t : SymbolTable) : t.listing = joinLines t.lines := rfl

theorem MemoryMap.listing_eq (w : MemoryMap) : w.listing = joinLines w.lines := rfl

theorem SymbolTable.isLine_lines {t : SymbolTable} (h : ∀ e ∈ t.entries, IsName e.name) :
    ∀ l ∈ t.lines, IsLine l := by
  rw [lines, List.forall_mem_cons, List.forall_mem_map]
  exact ⟨⟨by decide, by decide⟩, fun e he => isLine_symbolLine (h e he) e.address⟩

theorem MemoryMap.isLine_lines (w : MemoryMap) : ∀ l ∈ w.lines, IsLine l := by
  rw [lines, List.forall_mem_cons, List.forall_mem_map]
  exact ⟨⟨by decide, by decide⟩, fun pair _ => isLine_wordLine pair.1 pair.2⟩

/-- **The entries can be told from the lines of a table.** -/
theorem SymbolTable.entries_eq_of_lines_eq {t t' : SymbolTable}
    (ht : ∀ e ∈ t.entries, IsName e.name) (ht' : ∀ e ∈ t'.entries, IsName e.name)
    (h : t.lines = t'.lines) :
    (t.entries.map fun e => (e.name, e.address)) = t'.entries.map fun e => (e.name, e.address) := by
  refine map_eq_map_of_forall (fun e e' he he' h => ?_) ht ht' (List.cons.inj h).2
  obtain ⟨hname, haddress⟩ := symbolLine_inj he he' h
  rw [hname, haddress]

/-- **The words can be told from the lines of a map.** -/
theorem MemoryMap.words_eq_of_lines_eq {w w' : MemoryMap} (h : w.lines = w'.lines) :
    w.words = w'.words := by
  have hwords (w : MemoryMap) : w.pairs.map Prod.snd = w.words := by
    rw [pairs, List.map_map]
    exact List.zipIdx_map_fst 0 w.words
  rw [← hwords, ← hwords]
  exact map_eq_map_of_forall (P := fun _ => True) (fun _ _ _ _ h => (wordLine_inj h).2)
    (fun _ _ => trivial) (fun _ _ => trivial) (List.cons.inj h).2

/-- The sections of a listing. -/
def listingSections (ms : List Module) (t : SymbolTable) (w : MemoryMap) : List (List String) :=
  ms.map Module.lines ++ [t.lines, w.lines]

theorem listing_eq (ms : List Module) (t : SymbolTable) (w : MemoryMap) :
    listing ms t w = "\n\n".intercalate ((listingSections ms t w).map joinLines) ++ "\n" := by
  have hmodules : ms.map Module.listing = (ms.map Module.lines).map joinLines := by
    rw [List.map_map]
    refine List.map_congr_left fun m _ => ?_
    rw [Function.comp_apply, m.listing_eq]
  rw [listing, hmodules, t.listing_eq, w.listing_eq, listingSections, List.map_append,
    List.map_cons, List.map_singleton]

theorem isLine_listingSections {ms : List Module} {t : SymbolTable} (hm : ∀ m ∈ ms, m.Listable)
    (ht : ∀ e ∈ t.entries, IsName e.name) (w : MemoryMap) :
    ∀ lines ∈ listingSections ms t w, lines ≠ [] ∧ ∀ l ∈ lines, IsLine l := by
  intro lines h
  rcases List.mem_append.1 h with h | h
  · obtain ⟨m, hmem, rfl⟩ := List.mem_map.1 h
    exact ⟨List.cons_ne_nil _ _, Module.isLine_lines (hm m hmem)⟩
  · rcases List.mem_cons.1 h with rfl | h
    · exact ⟨List.cons_ne_nil _ _, SymbolTable.isLine_lines ht⟩
    · rw [List.mem_singleton.1 h]
      exact ⟨List.cons_ne_nil _ _, w.isLine_lines⟩

/-- The sections of a listing can be told from its text. -/
theorem lines_eq_of_listing_eq {ms ms' : List Module} {t t' : SymbolTable} {w w' : MemoryMap}
    (hm : ∀ m ∈ ms, m.Listable) (hm' : ∀ m ∈ ms', m.Listable)
    (ht : ∀ e ∈ t.entries, IsName e.name) (ht' : ∀ e ∈ t'.entries, IsName e.name)
    (h : listing ms t w = listing ms' t' w') :
    ms.map Module.lines = ms'.map Module.lines ∧ t.lines = t'.lines ∧ w.lines = w'.lines := by
  have hne (ms : List Module) (t : SymbolTable) (w : MemoryMap) : listingSections ms t w ≠ [] :=
    List.append_ne_nil_of_right_ne_nil _ (List.cons_ne_nil _ _)
  rw [listing_eq, listing_eq, String.append_left_inj] at h
  have hsections := intercalate_joinLines_inj (isLine_listingSections hm ht w)
    (isLine_listingSections hm' ht' w') (hne _ _ _) (hne _ _ _) h
  obtain ⟨hmodules, hrest⟩ := List.append_inj' hsections rfl
  obtain ⟨htable, hrest⟩ := List.cons.inj hrest
  exact ⟨hmodules, htable, (List.cons.inj hrest).1⟩

/-! ### Results of links -/

/-- What is needed of a result for its listing to show it. -/
structure LinkResult.Listable (r : LinkResult) : Prop where
  entries : ∀ e ∈ r.symbols.entries, IsName e.name
  modules : ∀ m ∈ r.store.modules, m.Listable

theorem isName_of_mem_scan {source filename : String} {t : Token}
    (h : t ∈ Token.scan source filename) : IsName t.text :=
  ⟨chars_ne_nil_of_mem_scan h, isAlphanumeric_of_mem_scan h⟩

/-- An instruction that has been read is listable once it is linked. -/
theorem Instruction.listable_linked {settings : Settings} (hv : settings.IsValid) {m : Module}
    {x : Instruction} (hread : x.asRead = x.address) {k : Nat} (hk : x.address = k)
    (hle : (k : Int) ≤ settings.maxAddress) (addressOf : String → Option Int) :
    (m.linkedInstruction addressOf x).Listable := by
  constructor
  · show 0 ≤ x.asRead ∧ x.asRead < wordRadix
    have hmax : settings.maxAddress < wordRadix := Int.sub_one_lt_iff.2 hv.2.2
    rw [hread, hk]
    omega
  · intro hrelocated
    have hfixed : x.classification.isRelocatable = false := (Bool.or_eq_false_iff.1 hrelocated).2
    have hfinal : m.finalAddress? addressOf x = some x.address := by
      unfold Module.finalAddress?
      cases hc : x.classification with
      | immediate => rfl
      | absolute => rfl
      | relative => rw [hc] at hfixed; cases hfixed
      | external => rw [hc] at hfixed; cases hfixed
    rw [Module.linkedInstruction, hfinal]
    exact hread.symm

/-- **The result of a link is listable.** -/
theorem listable_of_linkText {settings : Settings} (hv : settings.IsValid) {source filename : String}
    {r : LinkResult} (hr : (linkText settings source filename).result = .ok r) : r.Listable := by
  obtain ⟨s, hs, -, rfl⟩ := (link_eq_ok hv).1 hr
  have hread := Store.asRead_of_parse hs
  have hname {m : Module} (hm : m ∈ s.modules) : (∀ d ∈ m.definitions, IsName d.name) ∧
      ∀ u ∈ m.uses, IsName u.name := by
    obtain ⟨hd, hu⟩ := Store.namedBy_of_parse hs m hm
    refine ⟨fun d hdm => ?_, fun u hum => ?_⟩
    · obtain ⟨t, ht, htext⟩ := hd d hdm
      exact htext ▸ isName_of_mem_scan ht
    · obtain ⟨t, ht, htext⟩ := hu u hum
      exact htext ▸ isName_of_mem_scan ht
  constructor
  · intro e he
    have hentries : (LinkResult.ofStore settings s).symbols.entries = s.entries :=
      SymbolTable.entries_ofEntries settings.policy s.entries
    rw [hentries] at he
    obtain ⟨m, hm, d, hdm, hde⟩ := Store.mem_entries.1 he
    obtain ⟨offset, -, rfl⟩ := Option.map_eq_some_iff.1 hde
    exact (hname hm).1 d hdm
  · intro m hm
    obtain ⟨_, hlocated, rfl⟩ := List.mem_map.1 hm
    obtain ⟨m₀, hm₀, rfl⟩ := List.mem_map.1 hlocated
    refine ⟨fun d hd => ?_, (hname hm₀).2, fun x hx => ?_⟩
    · obtain ⟨d₀, hd₀, rfl⟩ := List.mem_map.1 hd
      obtain ⟨n, hn⟩ := hread.offset m₀ hm₀ d₀ hd₀
      refine ⟨by rw [Definition.name_located]; exact (hname hm₀).1 d₀ hd₀, n + m₀.start, ?_⟩
      rw [Definition.located, Definition.entryIn?_of_relative m₀ hn]
      rfl
    · obtain ⟨x₀, hx₀, rfl⟩ := List.mem_map.1 hx
      obtain ⟨k, hk, hle⟩ := hread.address m₀ hm₀ x₀ hx₀
      exact Instruction.listable_linked hv (Store.asRead_eq_of_parse hs m₀ hm₀ x₀ hx₀).1 hk hle _

/-- **A listing loses nothing.**  Two links of texts under valid settings whose listings without
modules are the same text have the same symbols, with their addresses and in order, and the same
words.  Where the listings with modules are the same text, so are the modules, with all that is shown
of their definitions, uses and instructions. -/
theorem listing_injective {settings settings' : Settings} (hv : settings.IsValid)
    (hv' : settings'.IsValid) {source source' filename filename' : String} {r r' : LinkResult}
    (hr : (linkText settings source filename).result = .ok r)
    (hr' : (linkText settings' source' filename').result = .ok r') (withModules : Bool)
    (h : r.listing withModules = r'.listing withModules) :
    (r.symbols.entries.map fun e => (e.name, e.address)) =
        (r'.symbols.entries.map fun e => (e.name, e.address)) ∧
      r.memory.words = r'.memory.words ∧
        (withModules = true → r.store.modules.map Module.view = r'.store.modules.map Module.view) := by
  have hlist := listable_of_linkText hv hr
  have hlist' := listable_of_linkText hv' hr'
  have hshown {r : LinkResult} (hr : r.Listable) :
      ∀ m ∈ if withModules then r.store.modules else [], m.Listable := by
    cases withModules with
    | false => exact fun m hm => absurd hm List.not_mem_nil
    | true => exact hr.modules
  obtain ⟨hmodules, htable, hwords⟩ :=
    lines_eq_of_listing_eq (hshown hlist) (hshown hlist') hlist.entries hlist'.entries h
  refine ⟨SymbolTable.entries_eq_of_lines_eq hlist.entries hlist'.entries htable,
    MemoryMap.words_eq_of_lines_eq hwords, ?_⟩
  rintro rfl
  exact map_eq_map_of_forall (fun m m' hm hm' h => Module.view_eq_of_lines_eq hm hm' h)
    hlist.modules hlist'.modules hmodules

theorem scan_blanks : Token.scan "0 0 1 R 4005" "a" =
    [⟨"0", 0, ⟨"a", 1, 1⟩⟩, ⟨"0", 1, ⟨"a", 1, 3⟩⟩, ⟨"1", 2, ⟨"a", 1, 5⟩⟩, ⟨"R", 3, ⟨"a", 1, 7⟩⟩,
      ⟨"4005", 4, ⟨"a", 1, 9⟩⟩] := by cbv

theorem scan_commas : Token.scan "0,0, 1,R,4005" "b" =
    [⟨"0", 0, ⟨"b", 1, 1⟩⟩, ⟨"0", 1, ⟨"b", 1, 3⟩⟩, ⟨"1", 2, ⟨"b", 1, 6⟩⟩, ⟨"R", 3, ⟨"b", 1, 8⟩⟩,
      ⟨"4005", 4, ⟨"b", 1, 10⟩⟩] := by cbv

/-- What a module of one word is linked to, when the word was read at the place. -/
def oneWord (l : Location) : LinkResult :=
  ⟨⟨[⟨0, 0, [], [], [⟨.relative, 4, 5, 5, true, some l⟩]⟩]⟩,
    (SymbolTable.empty (.known .error)).freeze, ⟨[4005]⟩, []⟩

/-- Two layouts of one module. -/
theorem listing_injective_layouts :
    ∃ r r', (linkText {} "0 0 1 R 4005" "a").result = .ok r ∧
      (linkText {} "0,0, 1,R,4005" "b").result = .ok r' ∧ r.listing true = r'.listing true ∧
        r.store.modules ≠ r'.store.modules ∧
          r.store.modules.map Module.view = r'.store.modules.map Module.view := by
  have hv : Settings.IsValid {} := by decide
  have hr : (linkText {} "0 0 1 R 4005" "a").result = .ok (oneWord ⟨"a", 1, 9⟩) := by
    rw [linkText, scan_blanks]
    rfl
  have hr' : (linkText {} "0,0, 1,R,4005" "b").result = .ok (oneWord ⟨"b", 1, 10⟩) := by
    rw [linkText, scan_commas]
    rfl
  exact ⟨_, _, hr, hr', rfl, by decide, (listing_injective hv hv hr hr' true rfl).2.2 rfl⟩

end Linkage
