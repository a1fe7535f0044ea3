import Linkage.Proofs.Pass.Faults
import Linkage.Proofs.Reading.Places
import Linkage.Proofs.Reading.Refusal

/-!
# Errors — the token that an error points at

The location of an error of the program is that of a token of the input, and the cause of the error
says which one (`LinkError.PointsAt`): the token that was refused, the last one where more were due,
the name of a definition, or the word of an instruction.

**Every error of a link points at such a token** (`link_error_pointsAt`).  An error of the reader
names the token it was about to read.  The passes know no tokens; a definition and an instruction
carry the location of one, and the token is found again where the item is written
(`exists_name_of_site`, `exists_word`).
-/

namespace Linkage

variable {settings : Settings} {ts : List Token} {s : Store} {t : Token} {e : LinkError}

/-! ### Which token -/

/-- Behind the partial program stands the name of a definition of module `i`. -/
def PartialProgram.PrecedesName (p : PartialProgram settings) (i : Int) (t : Token)
    (ts : List Token) : Prop :=
  p.Precedes t ts ∧ p.last.role = .definitionSymbol ∧ p.moduleIndex = i

/-- The token is the word of instruction `j` of module `i`. -/
def Token.IsWord (settings : Settings) (ts : List Token) (i : Int) (j : Nat) (t : Token) : Prop :=
  ∃ p : PartialProgram settings, p.Precedes t ts ∧ p.last.role = .instructionWord ∧
    p.moduleIndex = i ∧ p.last.module.length = j

/-- The token is refused where it stands. -/
def Token.IsRefused (settings : Settings) (ts : List Token) (c : Cause) (t : Token) : Prop :=
  ∃ p : PartialProgram settings, p.Precedes t ts ∧
    t.Faulty settings p.last.module.length c p.last.role

/-- The token that an error points at, by its cause. -/
def LinkError.PointsAt (settings : Settings) (ts : List Token) (e : LinkError) (t : Token) : Prop :=
  match e.cause with
  | .invalidCount text    => t.text = text ∧ t.IsRefused settings ts e.cause
  | .invalidLocation text => t.text = text ∧ t.IsRefused settings ts e.cause
  | .invalidType text     => t.text = text ∧ t.IsRefused settings ts e.cause
  | .shortWord text       => t.text = text ∧ t.IsRefused settings ts e.cause
  | .nonDigitWord text    => t.text = text ∧ t.IsRefused settings ts e.cause
  | .endOfInput _ _       => ts.getLast? = some t
  | .duplicate symbol earlier =>
    -- the name is repeated: it stands in module `earlier` before
    t.text = symbol ∧ ∃ p : PartialProgram settings, p.PrecedesName e.moduleIndex t ts ∧
      ∃ (p₀ : PartialProgram settings) (t₀ : Token), p₀.PrecedesName earlier t₀ p.tokens ∧
        t₀.text = symbol
  | .useOutOfRange _ j _        => t.IsWord settings ts e.moduleIndex j
  | .undefinedSymbol _ _ j _    => t.IsWord settings ts e.moduleIndex j
  | .addressOutOfRange _ _ (some j) => t.IsWord settings ts e.moduleIndex j
  | .addressOutOfRange a _ none =>
    -- the offset stands behind the name, and leads out of the machine
    ∃ p : PartialProgram settings, p.PrecedesName e.moduleIndex t ts ∧
      ∃ (o : Token) (rest : List Token) (n : Nat), ts = p.tokens ++ t :: o :: rest ∧
        Numeral.Writes o.chars n ∧ n + wordCount (p.complete.map ModuleText.module) = a ∧
          settings.maxAddress < a

theorem PartialProgram.Precedes.mem {p : PartialProgram settings} (h : p.Precedes t ts) :
    t ∈ ts := by
  obtain ⟨rest, rfl⟩ := h
  exact List.mem_append_cons_self

/-! ### Errors of the reader -/

theorem Store.parse_error_pointsAt (h : Store.parse settings ts = .error (.link e)) :
    ∃ t ∈ ts, e.location = some t.location ∧ e.PointsAt settings ts t := by
  rcases parse_eq_link.1 h with ⟨p, t, rest, c, hts, hf, rfl⟩ | ⟨p, hp, hrem, -, rfl⟩
  · have hpre : p.Precedes t ts := ⟨rest, hts⟩
    refine ⟨t, hpre.mem, rfl, ?_⟩
    have hrefused : t.IsRefused settings ts c := ⟨p, hpre, hf⟩
    cases hr : p.last.role with
    | count =>
      rw [hr] at hf
      obtain ⟨-, rfl⟩ := hf
      exact ⟨rfl, hrefused⟩
    | definitionSymbol => rw [hr] at hf; exact hf.elim
    | definitionLocation =>
      rw [hr] at hf
      obtain ⟨-, rfl⟩ := hf
      exact ⟨rfl, hrefused⟩
    | use => rw [hr] at hf; exact hf.elim
    | instructionType =>
      rw [hr] at hf
      obtain ⟨-, -, rfl⟩ := hf
      exact ⟨rfl, hrefused⟩
    | instructionWord =>
      rw [hr] at hf
      rcases hf with ⟨-, rfl⟩ | ⟨-, -, rfl⟩ | ⟨-, -, n, -, -, rfl⟩
      · exact ⟨rfl, hrefused⟩
      · exact ⟨rfl, hrefused⟩
      · -- the module is that of the word, since the reader is within it
        have hlast : p.last ≠ .unopened := PartialModule.ne_unopened (by rw [hr]; decide)
        exact ⟨p, hpre, hr, congrArg (fun ms => (List.length ms : Int))
          (PartialProgram.placed_of_ne hlast).symm, rfl⟩
  · cases hlast : ts.getLast? with
    | some t => exact ⟨t, List.mem_of_getLast? hlast, rfl, hlast⟩
    | none =>
      -- nothing is due before the first token
      rw [List.getLast?_eq_none_iff] at hlast
      have hrun := p.run_tokens
      rw [hp, hlast] at hrun
      have hstate := congrArg Reading.state (Except.ok.inj hrun)
      exact absurd (congrArg Reading.State.remaining hstate).symm hrem

/-! ### Errors of the passes -/

/-- Where an element of a list of lists stands. -/
theorem exists_of_flatMap_eq_append {α β : Type} {f : α → List β} {xs : List α} {pre : List β}
    {y : β} {post : List β} (h : xs.flatMap f = pre ++ y :: post) :
    ∃ i x k, xs[i]? = some x ∧ (f x)[k]? = some y ∧
      pre = (xs.take i).flatMap f ++ (f x).take k := by
  induction xs generalizing pre with
  | nil => simp at h
  | cons x xs ih =>
    have hlater {pre' : List β} (h' : xs.flatMap f = pre' ++ y :: post) :
        ∃ i z k, (x :: xs)[i]? = some z ∧ (f z)[k]? = some y ∧
          f x ++ pre' = ((x :: xs).take i).flatMap f ++ (f z).take k := by
      obtain ⟨i, z, k, hi, hk, rfl⟩ := ih h'
      exact ⟨i + 1, z, k, hi, hk, by simp⟩
    rw [List.flatMap_cons] at h
    rcases List.append_eq_append_iff.1 h with ⟨pre', rfl, hrest⟩ | ⟨mid, hx, hrest⟩
    · exact hlater hrest
    · cases mid with
      | nil =>
        have hpre := @hlater [] hrest.symm
        rwa [List.append_nil, hx, List.append_nil] at hpre
      | cons z mid =>
        cases hrest
        exact ⟨0, x, pre.length, rfl, by simp [hx], by simp [hx]⟩

namespace PartialProgram

variable {p : PartialProgram settings} {i : Nat} {m : Module}

/-- A module of a program is a module that has been written, placed behind those before it. -/
theorem exists_module (hs : Store.ofModules p.modules = s) (hm : s.modules[i]? = some m) :
    ∃ m₀, p.modules[i]? = some m₀ ∧ m = m₀.placedAt i (wordCount (p.modules.take i)) := by
  rw [← hs, Store.modules_ofModules, Store.getElem?_placedFrom, Option.map_eq_some_iff] at hm
  obtain ⟨m₀, h₀, rfl⟩ := hm
  exact ⟨m₀, h₀, by rw [Nat.zero_add, Nat.zero_add]⟩

/-- The definitions before one have been written before its name. -/
theorem exists_earlier {q : PartialProgram settings} {k : Nat} {m₁ : Module} {d₁ : Definition}
    (hs : Store.ofModules p.modules = s) (hm : s.modules[i]? = some m)
    (hbefore : q.complete.map ModuleText.module = p.modules.take i)
    (hlast : q.last ≠ .unopened) (hdefs : q.last.module.definitions = m.definitions.take k)
    (hmem : (m₁, d₁) ∈ (s.modules.take i).flatMap (fun m => m.definitions.map (Prod.mk m)) ++
      (m.definitions.map (Prod.mk m)).take k) :
    ∃ (n : Module) (k₁ : Nat), q.modules[m₁.index]? = some n ∧ n.definitions[k₁]? = some d₁ := by
  obtain ⟨m₀, h₀, rfl⟩ := exists_module hs hm
  have hi : (p.modules.take i).length = i :=
    List.length_take_of_le (Nat.le_of_lt (List.getElem?_eq_some_iff.1 h₀).1)
  rw [modules_of_ne hlast, hbefore]
  rcases List.mem_append.1 hmem with hmem | hmem
  · -- in a module before
    obtain ⟨m', hm', hd⟩ := List.mem_flatMap.1 hmem
    obtain ⟨_, hd, ⟨⟩⟩ := List.mem_map.1 hd
    obtain ⟨i₁, hi₁⟩ := List.mem_iff_getElem?.1 hm'
    obtain ⟨k₁, hk₁⟩ := List.mem_iff_getElem?.1 hd
    rw [List.getElem?_take] at hi₁
    split at hi₁
    · next hlt =>
      obtain ⟨n, hn, rfl⟩ := exists_module hs hi₁
      refine ⟨n, k₁, ?_, hk₁⟩
      show (p.modules.take i ++ [q.last.module])[i₁]? = some n
      rw [List.getElem?_append_left (hi.symm ▸ hlt), List.getElem?_take_of_lt hlt]
      exact hn
    · cases hi₁
  · -- in the same module
    rw [← List.map_take] at hmem
    obtain ⟨_, hd, ⟨⟩⟩ := List.mem_map.1 hmem
    obtain ⟨k₁, hk₁⟩ := List.mem_iff_getElem?.1 hd
    refine ⟨q.last.module, k₁, ?_, hdefs ▸ hk₁⟩
    show (p.modules.take i ++ [q.last.module])[i]? = some q.last.module
    rw [List.getElem?_append_right (Nat.le_of_eq hi), hi]
    exact congrArg (fun k : Nat => [q.last.module][k]?) (Nat.sub_self i)

/-- A definition of a program is written behind all definitions that precede it. -/
theorem exists_name_of_site {pre post : List (Module × Definition)} {d : Definition}
    (hs : Store.ofModules p.modules = s) (h : s.definitionSites = pre ++ (m, d) :: post) :
    ∃ (q : PartialProgram settings) (x : DefinitionText) (rest : List Token),
      p.tokens = q.tokens ++ x.symbol :: x.offset.token :: rest ∧ x.definition = d ∧
        q.last.role = .definitionSymbol ∧ q.moduleIndex = m.index ∧
          wordCount (q.complete.map ModuleText.module) = m.start ∧
            ∀ m₁ d₁, (m₁, d₁) ∈ pre → ∃ (n : Module) (k₁ : Nat),
              q.modules[m₁.index]? = some n ∧ n.definitions[k₁]? = some d₁ := by
  obtain ⟨i, m', k, hi, hk, rfl⟩ := exists_of_flatMap_eq_append h
  rw [List.getElem?_map, Option.map_eq_some_iff] at hk
  obtain ⟨d', hd, hmd⟩ := hk
  obtain ⟨rfl, rfl⟩ : m' = m ∧ d' = d := Prod.mk.inj hmd
  obtain ⟨m₀, h₀, rfl⟩ := exists_module hs hi
  obtain ⟨q, x, rest, hq, rfl, hrole, hindex, hbefore, hdefs⟩ := exists_name h₀ hd
  have hlast : q.last ≠ .unopened := PartialModule.ne_unopened (by rw [hrole]; decide)
  exact ⟨q, x, rest, hq, rfl, hrole, hindex, congrArg wordCount hbefore,
    fun m₁ d₁ hmem => exists_earlier hs hi hbefore hlast hdefs hmem⟩

end PartialProgram

/-- The first pass fails at the name of a definition. -/
theorem firstPass_error_pointsAt (hp : settings.policy.isKnown = true)
    (hs : Store.parse settings ts = .ok s) (h : (firstPass settings s).result = .error (.link e)) :
    ∃ t ∈ ts, e.location = some t.location ∧ e.PointsAt settings ts t := by
  obtain ⟨p, rfl, -, hplaced⟩ := PartialProgram.parse_eq_ok_iff.1 hs
  obtain ⟨pre, ⟨m, d⟩, post, hsites, hf, -⟩ :=
    (firstPass_eq_error_iff hp (Store.asRead_of_parse hs)).1 h
  obtain ⟨q, x, rest, hq, rfl, hrole, hindex, hstart, hearlier⟩ :=
    PartialProgram.exists_name_of_site hplaced hsites
  have hname : q.PrecedesName m.index x.symbol p.tokens := ⟨⟨_, hq⟩, hrole, mod_cast hindex⟩
  refine ⟨x.symbol, hname.1.mem, ?_⟩
  generalize hfail : Failure.link e = f at hf
  cases hf with
  | beyond hrel hmax _ =>
    cases hrel
    cases hfail
    refine ⟨rfl, q, hname, x.offset.token, rest, x.offset.value, hq, x.offset.writes, ?_, hmax⟩
    rw [hstart]
  | tooLarge _ _ _ => cases hfail
  | @repeated _ m₁ _ d₁ _ _ _ _ hfind =>
    cases hfail
    have hd₁ : d₁.name = x.definition.name := by simpa using List.find?_some hfind
    obtain ⟨n, k₁, hn, hk₁⟩ := hearlier m₁ d₁ (List.mem_of_find?_eq_some hfind)
    obtain ⟨q₀, x₀, rest₀, hq₀, rfl, hrole₀, hindex₀, -⟩ := PartialProgram.exists_name hn hk₁
    exact ⟨rfl, rfl, q, hname, q₀, x₀.symbol, ⟨⟨_, hq₀⟩, hrole₀, mod_cast hindex₀⟩, hd₁⟩

/-- The second pass fails at the word of an instruction. -/
theorem secondPass_error_pointsAt {table : SymbolTable} (hp : settings.policy.isKnown = true)
    (hs : Store.parse settings ts = .ok s) (ht : (firstPass settings s).result = .ok table)
    (h : (secondPass settings (firstPass settings s).reached table).result = .error (.link e)) :
    ∃ t ∈ ts, e.location = some t.location ∧ e.PointsAt settings ts t := by
  obtain ⟨p, rfl, -, hplaced⟩ := PartialProgram.parse_eq_ok_iff.1 hs
  obtain ⟨pre, ⟨m, x, j⟩, post, hsites, hf, -⟩ :=
    (secondPass_eq_error_iff hp (Store.asRead_of_parse hs) ht).1 h
  obtain ⟨hm, hx⟩ := Store.mem_instructionSites.1 (hsites ▸ List.mem_append_cons_self)
  obtain ⟨i, hi⟩ := List.mem_iff_getElem?.1 hm
  obtain ⟨m₀, h₀, rfl⟩ := PartialProgram.exists_module hplaced hi
  obtain ⟨q, y, rest, hq, rfl, hrole, hindex, hlen⟩ := PartialProgram.exists_word h₀ hx
  have hpre : q.Precedes y.word p.tokens := ⟨rest, hq⟩
  have hword : y.word.IsWord settings p.tokens i j := ⟨q, hpre, hrole, mod_cast hindex, hlen⟩
  refine ⟨y.word, hpre.mem, ?_⟩
  cases hf with
  | noUse _ _ => exact ⟨rfl, hword⟩
  | undefined _ _ _ _ => exact ⟨rfl, hword⟩
  | beyond _ _ => exact ⟨rfl, hword⟩

/-! ### Errors of a link -/

/-- An error of a link points at a token. -/
theorem link_error_pointsAt (hv : settings.IsValid)
    (h : (link settings ts).result = .error (.link e)) :
    ∃ t ∈ ts, e.location = some t.location ∧ e.PointsAt settings ts t := by
  rcases (link_eq_error hv).1 h with hp | ⟨s, hp, hf | ⟨table, ht, hf⟩⟩
  · exact Store.parse_error_pointsAt hp
  · exact firstPass_error_pointsAt hv.1 hp hf
  · exact secondPass_error_pointsAt hv.1 hp ht hf

/-- **Every error points at the right token.**  The location of an error that the link of a text
fails with is that of a token of the text, and the token is the one that the cause of the error
speaks of. -/
theorem linkText_error_pointsAt (hv : settings.IsValid) (source filename : String)
    (h : (linkText settings source filename).result = .error (.link e)) :
    ∃ t ∈ Token.scan source filename, e.location = some t.location ∧
      e.PointsAt settings (Token.scan source filename) t :=
  link_error_pointsAt hv h

/-- At a text that defines a symbol twice it is the second of the names. -/
theorem linkText_error_pointsAt_repeated :
    ∃ e : LinkError, Settings.IsValid {} ∧
      (linkText {} "1 z 0 0 0 1 z 0 0 0" "<input>").result = .error (.link e) ∧
        ∃ t ∈ Token.scan "1 z 0 0 0 1 z 0 0 0" "<input>",
          t.text = "z" ∧ t.location = ⟨"<input>", 1, 13⟩ := by
  have hv : Settings.IsValid {} := by decide
  have hscan : Token.scan "1 z 0 0 0 1 z 0 0 0" "<input>" =
      [⟨"1", 0, ⟨"<input>", 1, 1⟩⟩, ⟨"z", 1, ⟨"<input>", 1, 3⟩⟩, ⟨"0", 2, ⟨"<input>", 1, 5⟩⟩,
        ⟨"0", 3, ⟨"<input>", 1, 7⟩⟩, ⟨"0", 4, ⟨"<input>", 1, 9⟩⟩, ⟨"1", 5, ⟨"<input>", 1, 11⟩⟩,
        ⟨"z", 6, ⟨"<input>", 1, 13⟩⟩, ⟨"0", 7, ⟨"<input>", 1, 15⟩⟩, ⟨"0", 8, ⟨"<input>", 1, 17⟩⟩,
        ⟨"0", 9, ⟨"<input>", 1, 19⟩⟩] := by cbv
  have h : (linkText {} "1 z 0 0 0 1 z 0 0 0" "<input>").result =
      .error (.link ⟨.duplicate "z" 0, some ⟨"<input>", 1, 13⟩, 1⟩) := by
    rw [linkText, hscan]
    rfl
  obtain ⟨t, ht, hloc, htext, -⟩ := linkText_error_pointsAt hv _ _ h
  exact ⟨_, hv, h, t, ht, htext, (Option.some.inj hloc).symm⟩

end Linkage
