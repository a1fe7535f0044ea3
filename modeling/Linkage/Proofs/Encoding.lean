import Linkage.Proofs.Capacity
import Linkage.Proofs.ErrorTokens

/-!
# Linking — taking the words of an image apart

A word is the sum of an opcode, multiplied by `wordRadix`, and an address.  It can be taken apart
when the address is one of a machine of at most `wordRadix` words (`word_ediv`, `word_emod`); an
address out of bounds would run into the opcode without a trace.

**In an image none does** (`linkText_encoding`).  An immediate and an absolute address have been
checked when they were read, a relative one after it has been shifted, and an external one is that
of a definition, checked when it was entered (`Store.isAddress_of_linkable`).  The opcode is the
first digit of the token that writes the word (`Instruction.Encodes`).
-/

namespace Linkage

variable {settings : Settings} {s : Store} {m : Module} {x : Instruction} {t : Token} {i j : Nat}

/-- The instruction of the module is encoded by its word, and was read from the token; names stand
for the given addresses. -/
structure Instruction.Encodes (settings : Settings) (addressOf : String → Option Int) (m : Module)
    (t : Token) (x : Instruction) : Prop where
  /-- The token writes the opcode digit and the address as it was read. -/
  written : ∃ o a : Nat, WritesWord settings t.chars o a ∧ x.opcode = o ∧ x.asRead = a
  location : x.location = some t.location
  /-- The address field is the final one of what was read. -/
  final : m.finalAddress? addressOf (.fresh x.classification x.opcode x.asRead x.location) =
    some x.address
  relocated : x.relocated = x.classification.isRelocatable
  /-- The word has at most four digits. -/
  bounds : 0 ≤ x.word ∧ x.word ≤ 9999
  opcode : x.word / wordRadix = x.opcode
  address : x.word % wordRadix = x.address
  /-- The address is one of the machine. -/
  inMachine : settings.IsAddress x.address

/-! ### One word -/

/-- The addresses of a valid machine are below the radix. -/
theorem Settings.IsAddress.lt_wordRadix (hv : settings.IsValid) {a : Int}
    (h : settings.IsAddress a) : a < wordRadix :=
  Int.lt_of_le_sub_one (Int.le_trans h.2 (Int.sub_le_sub_right hv.2.2 1))

theorem Instruction.word_ediv (h₀ : 0 ≤ x.address) (h : x.address < wordRadix) :
    x.word / wordRadix = x.opcode := by
  unfold word
  unfold wordRadix at h ⊢
  omega

theorem Instruction.word_emod (h₀ : 0 ≤ x.address) (h : x.address < wordRadix) :
    x.word % wordRadix = x.address := by
  unfold word
  unfold wordRadix at h ⊢
  omega

/-- An opcode is a digit. -/
theorem WritesWord.opcode_le {cs : List Char} {o a : Nat} (h : WritesWord settings cs o a) :
    o ≤ 9 := by
  obtain ⟨c, ds, -, hdigit, rfl, -, -⟩ := h
  exact Numeral.idxOf_digits_le hdigit

/-- A word that has been read is encoded once its address is the final one. -/
theorem InstructionText.encodes (hv : settings.IsValid) (y : InstructionText settings)
    {addressOf : String → Option Int} {a : Int}
    (ha : m.finalAddress? addressOf y.instruction = some a) (hin : settings.IsAddress a) :
    (y.instruction.linkedAt a).Encodes settings addressOf m y.word := by
  have hlt : a < wordRadix := hin.lt_wordRadix hv
  have hopcode : (y.opcode : Int) ≤ 9 := Int.ofNat_le.2 y.writes.opcode_le
  have hword : (y.instruction.linkedAt a).word = y.opcode * wordRadix + a := rfl
  refine ⟨⟨y.opcode, y.address, y.writes, rfl, rfl⟩, rfl, ha, Bool.false_or _, ?_,
    Instruction.word_ediv hin.1 hlt, Instruction.word_emod hin.1 hlt, hin⟩
  rw [hword]
  unfold wordRadix at hlt ⊢
  have h₀ := hin.1
  omega

/-! ### All words -/

/-- The word of an instruction stands behind all words before it. -/
theorem Store.getElem?_words (hm : s.modules[i]? = some m) (hx : m.instructions[j]? = some x) :
    s.words[s.startOf i + j]? = some x.word := by
  rw [words, List.getElem?_map, getElem?_instructions hm hx, Option.map_some]

/-- The instructions of the image of a program that has been read are encoded by their words. -/
theorem exists_encodes (hv : settings.IsValid) {ts : List Token}
    (hs : Store.parse settings ts = .ok s) (hl : s.Linkable settings)
    (hm : (s.image settings.policy).modules[i]? = some m) (hx : m.instructions[j]? = some x) :
    ∃ t, t.IsWord settings ts i j ∧ x.Encodes settings (s.addressOf settings.policy) m t := by
  have h := Store.asRead_of_parse hs
  obtain ⟨p, rfl, -, hplaced⟩ := PartialProgram.parse_eq_ok_iff.1 hs
  -- the module and the instruction of the program that those of the image come from
  simp only [Store.image, Store.linked, Store.located, List.getElem?_map,
    Option.map_eq_some_iff] at hm
  obtain ⟨_, ⟨m₀, hm₀, rfl⟩, rfl⟩ := hm
  have hx : (m₀.instructions.map (m₀.linkedInstruction (s.addressOf settings.policy)))[j]? =
      some x := hx
  rw [List.getElem?_map, Option.map_eq_some_iff] at hx
  obtain ⟨x₀, hx₀, rfl⟩ := hx
  have hmem := List.mem_of_getElem? hm₀
  have hmemx := List.mem_of_getElem? hx₀
  have hin := Store.isAddress_of_linkable h hl hmem hmemx
  obtain ⟨a, ha, -, -⟩ := hl.links h hmem hmemx
  rw [Module.linkedInstruction, ha, Option.getD_some] at hin ⊢
  -- and the token that writes it
  obtain ⟨n, hn, rfl⟩ := PartialProgram.exists_module hplaced hm₀
  obtain ⟨q, y, rest, hq, rfl, hrole, hindex, hlen⟩ := PartialProgram.exists_word hn hx₀
  exact ⟨y.word, ⟨q, ⟨rest, hq⟩, hrole, mod_cast hindex, hlen⟩, y.encodes hv ha hin⟩

/-- **The words of an image can be taken apart.**  The words of the image of a text are those of its
instructions in order.  Each has at most four digits; divided by `wordRadix` it gives the opcode
digit that its token writes, with the final address as the remainder, and that is an address of the
machine.  So are the addresses of the symbols. -/
theorem linkText_encoding (hv : settings.IsValid) {source filename : String} {r : LinkResult}
    (hr : (linkText settings source filename).result = .ok r) :
    r.memory.words = r.store.words ∧
    (∀ (i j : Nat) (m : Module) (x : Instruction),
      r.store.modules[i]? = some m → m.instructions[j]? = some x →
        r.memory.words[r.store.startOf i + j]? = some x.word ∧
          ∃ t, t.IsWord settings (Token.scan source filename) i j ∧
            x.Encodes settings r.symbols.addressOf m t) ∧
    (∀ w ∈ r.memory.words, 0 ≤ w ∧ w ≤ 9999 ∧ settings.IsAddress (w % wordRadix)) ∧
    (∀ e ∈ r.symbols.entries, settings.IsAddress e.address) ∧
    ∀ name a, r.symbols.addressOf name = some a → settings.IsAddress a := by
  obtain ⟨s, hs, hl, rfl⟩ := (link_eq_ok hv).1 hr
  have h := Store.asRead_of_parse hs
  have hnames : (LinkResult.ofStore settings s).symbols.addressOf = s.addressOf settings.policy :=
    Store.addressOf_ofEntries settings.policy s
  have hentries : (LinkResult.ofStore settings s).symbols.entries = s.entries :=
    SymbolTable.entries_ofEntries settings.policy s.entries
  refine ⟨rfl, fun i j m x hm hx => ⟨Store.getElem?_words hm hx, ?_⟩, fun w hw => ?_,
    fun e he => ?_, fun name a ha => ?_⟩
  · rw [hnames]
    exact exists_encodes hv hs hl hm hx
  · obtain ⟨x, hx, rfl⟩ := List.mem_map.1 hw
    obtain ⟨m, hm, hxm⟩ := List.mem_flatMap.1 hx
    obtain ⟨i, hi⟩ := List.mem_iff_getElem?.1 hm
    obtain ⟨j, hj⟩ := List.mem_iff_getElem?.1 hxm
    obtain ⟨t, -, henc⟩ := exists_encodes hv hs hl hi hj
    rw [henc.address]
    exact ⟨henc.bounds.1, henc.bounds.2, henc.inMachine⟩
  · exact Store.isAddress_of_mem_entries h hl (hentries ▸ he)
  · rw [hnames] at ha
    obtain ⟨e, he, rfl⟩ := Store.exists_of_addressOf ha
    exact Store.isAddress_of_mem_entries h hl he

/-- The word of a relative instruction, shifted by the two words before it. -/
theorem linkText_encoding_relative :
    ∃ r, Settings.IsValid {} ∧
      (linkText {} "0 0 2 I 10 A 20 0 0 1 R 7005" "<input>").result = .ok r ∧
        r.memory.words = [1000, 2000, 7007] ∧
          ∀ w ∈ r.memory.words, 0 ≤ w ∧ w ≤ 9999 ∧ Settings.IsAddress {} (w % wordRadix) := by
  have hv : Settings.IsValid {} := by decide
  have hscan : Token.scan "0 0 2 I 10 A 20 0 0 1 R 7005" "<input>" =
      [⟨"0", 0, ⟨"<input>", 1, 1⟩⟩, ⟨"0", 1, ⟨"<input>", 1, 3⟩⟩, ⟨"2", 2, ⟨"<input>", 1, 5⟩⟩,
        ⟨"I", 3, ⟨"<input>", 1, 7⟩⟩, ⟨"10", 4, ⟨"<input>", 1, 9⟩⟩, ⟨"A", 5, ⟨"<input>", 1, 12⟩⟩,
        ⟨"20", 6, ⟨"<input>", 1, 14⟩⟩, ⟨"0", 7, ⟨"<input>", 1, 17⟩⟩, ⟨"0", 8, ⟨"<input>", 1, 19⟩⟩,
        ⟨"1", 9, ⟨"<input>", 1, 21⟩⟩, ⟨"R", 10, ⟨"<input>", 1, 23⟩⟩,
        ⟨"7005", 11, ⟨"<input>", 1, 25⟩⟩] := by cbv
  have hwords : (linkText {} "0 0 2 I 10 A 20 0 0 1 R 7005" "<input>").result.map
      (fun r => r.memory.words) = .ok [1000, 2000, 7007] := by
    rw [linkText, hscan]
    rfl
  obtain ⟨r, hr, hmemory⟩ := map_eq_ok.1 hwords
  exact ⟨r, hv, hr, hmemory, (linkText_encoding hv hr).2.2.1⟩

end Linkage
