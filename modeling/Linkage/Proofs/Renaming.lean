import Linkage.Proofs.Concatenation
import Linkage.Proofs.Reading.Places
import Linkage.Proofs.Warnings
import Mathlib.Data.List.Nodup
import Mathlib.Data.Set.Function

/-!
# Renaming — what names are for

A token is a name when its role is that of the symbol of a definition or of a use.
`Reading.renameNames f` replaces the names among some tokens and leaves the others; the reader takes
its steps as before, and **reads the program with other names** (`parse_renamed`).

Names are compared with each other, and nothing else is done with them.  So where `f` tells the
names of a program apart, a name stands for what it stood for (`addressOf_renamed`), the program is
linkable as it was before (`linkable_renamed`), its words are the same (`words_image_renamed`), and
its entries and warnings are those with the other names (`entries_renamed`, `warningsOf_renamed`).

`link_renamed` puts this together, for the tokens of a program.
-/

namespace Linkage

variable {f : String → String}

/-! ### Other names -/

/-- The role is that of a name. -/
def Role.isName : Role → Bool
  | .definitionSymbol => true
  | .use              => true
  | _                 => false

/-- The token with another name. -/
def Token.renamed (f : String → String) (t : Token) : Token := { t with text := f t.text }

/-- The token in its role, with another name when it is a name. -/
def Token.renamedAs (f : String → String) (role : Role) (t : Token) : Token :=
  if role.isName then t.renamed f else t

/-- Tokens with the names among them replaced, as a reader goes on with them. -/
def Reading.renameNames (settings : Settings) (f : String → String) :
    Reading → List Token → List Token
  | _, []      => []
  | r, t :: ts =>
    t.renamedAs f r.state.role ::
      match r.step settings t with
      | .ok r'   => renameNames settings f r' ts
      | .error _ => ts

/-- The definition under another name. -/
def Definition.renamed (f : String → String) (d : Definition) : Definition :=
  { d with name := f d.name }

/-- The use of another name. -/
def Use.renamed (f : String → String) (u : Use) : Use := { u with name := f u.name }

/-- The module with other names. -/
def Module.renamed (f : String → String) (m : Module) : Module :=
  { m with
    definitions := m.definitions.map (Definition.renamed f)
    uses := m.uses.map (Use.renamed f) }

/-- The program with other names. -/
def Store.renamed (f : String → String) (s : Store) : Store := ⟨s.modules.map (Module.renamed f)⟩

/-- The entry of another name. -/
def Entry.renamed (f : String → String) (e : Entry) : Entry := { e with name := f e.name }

/-- The warning about another name. -/
def Warning.renamed (f : String → String) : Warning → Warning
  | .beyondModule i symbol offset size => .beyondModule i (f symbol) offset size
  | .neverUsed i symbol                => .neverUsed i (f symbol)
  | .neverReferenced i symbol          => .neverReferenced i (f symbol)

/-! ### Reading -/

namespace Reading

open State

variable {settings : Settings} {r r' : Reading} {t : Token} {ts : List Token} {s : Store}

/-- The state with another name in hand, when the symbol of a definition has been read. -/
def State.renamed (f : String → String) (s : State) : State :=
  match s.part with
  | .definitions => { s with pending := s.pending.map (Token.renamed f) }
  | _            => s

/-- The reading with other names in what it holds. -/
def renamed (f : String → String) (r : Reading) : Reading :=
  ⟨r.state.renamed f, r.current.map (Module.renamed f), r.store.renamed f⟩

theorem State.renamed_due (part : Section) (k : Nat) : (due part k).renamed f = due part k := by
  cases k with
  | zero => cases part <;> rfl
  | succ k =>
    rw [due_succ]
    cases part <;> rfl

theorem State.remaining_renamed (s : State) : (s.renamed f).remaining = s.remaining := by
  unfold renamed
  split <;> rfl

/-- Between two items there is no name in hand. -/
theorem renamed_due (part : Section) (k : Nat) (m : Option Module) (st : Store) :
    renamed f ⟨due part k, m, st⟩ =
      ⟨due part k, m.map (Module.renamed f), st.renamed f⟩ := by
  rw [renamed, State.renamed_due]

theorem finished_renamed (r : Reading) : (r.renamed f).finished = r.finished.renamed f := by
  obtain ⟨state, current, store⟩ := r
  cases current with
  | none => rfl
  | some m =>
    exact Store.append_map (φ := Module.renamed f) (fun _ _ _ => rfl) (fun _ => rfl) store m

theorem count_renamed (s : Store) : (s.renamed f).count = s.count := List.length_map _

theorem addDefinition_renamed (m : Module) (d : Definition) :
    (m.renamed f).addDefinition (d.renamed f) = (m.addDefinition d).renamed f :=
  congrArg (fun ds => { m.renamed f with definitions := ds })
    (map_concat (.renamed f) m.definitions d)

theorem addUse_renamed (m : Module) (u : Use) :
    (m.renamed f).addUse (u.renamed f) = (m.addUse u).renamed f :=
  congrArg (fun us => { m.renamed f with uses := us }) (map_concat (.renamed f) m.uses u)

/-- A count is read as before. -/
theorem step_renamed_of_count (hr : r.state.remaining = 0) (hstate : r.state.renamed f = r.state)
    (h : r.step settings t = .ok r') :
    (r.renamed f).step settings (t.renamedAs f r.state.role) = .ok (r'.renamed f) := by
  have hremaining : (r.renamed f).state.remaining = 0 := by rw [renamed, hstate, hr]
  have hpart : (r.renamed f).state.part = r.state.part := by rw [renamed, hstate]
  have ht : t.renamedAs f r.state.role = t := by rw [role_eq_count.2 hr]; rfl
  have hcount : (r.renamed f).store.count = r.store.count := count_renamed r.store
  rw [step_count hr, map_eq_ok] at h
  obtain ⟨n, hn, rfl⟩ := h
  rw [ht, step_count hremaining, hcount, hn, hpart, finished_renamed]
  refine congrArg Except.ok ?_
  split
  · exact (renamed_due .definitions n (some {}) r.finished).symm
  · exact (renamed_due r.state.part n r.current r.store).symm

/-- **A step is taken as before**, with the name of the token replaced when it is one. -/
theorem step_renamed (hr : r.Regular) (h : r.step settings t = .ok r') :
    (r.renamed f).step settings (t.renamedAs f r.state.role) = .ok (r'.renamed f) := by
  cases hr with
  | start => exact step_renamed_of_count rfl rfl h
  | due part k m st =>
    cases k with
    | zero => exact step_renamed_of_count rfl (State.renamed_due part 0) h
    | succ k =>
      rw [renamed_due]
      cases part with
      | definitions =>
        rw [step_symbol] at h
        cases h
        rw [role_due_definitions, step_symbol]
        rfl
      | uses =>
        rw [step_use] at h
        cases h
        rw [role_due_uses, step_use, renamed_due]
        have huse := addUse_renamed (f := f) m t.use
        exact congrArg (fun m' => Except.ok (Reading.mk (due .uses k) (some m') (st.renamed f)))
          huse
      | instructions =>
        rw [step_type, map_eq_ok] at h
        obtain ⟨kind, hk, rfl⟩ := h
        have ht : t.renamedAs f .instructionType = t := rfl
        rw [role_due_instructions, step_type, count_renamed, ht, hk]
        rfl
  | symbol k first m st =>
    rw [step_offset, map_eq_ok] at h
    obtain ⟨n, hn, rfl⟩ := h
    have ht : t.renamedAs f .definitionLocation = t := rfl
    have hfirst : renamed f ⟨half .definitions k first, some m, st⟩ =
        ⟨half .definitions k (first.renamed f), some (m.renamed f), st.renamed f⟩ := rfl
    have hdefinition := addDefinition_renamed (f := f) m
      (.fresh first.text (some n) (some first.location))
    rw [role_half_definitions, renamed_due, hfirst, step_offset, count_renamed, ht, hn]
    exact congrArg (fun m' => Except.ok (Reading.mk (due .definitions k) (some m') (st.renamed f)))
      hdefinition
  | type k first kind m st hk =>
    rw [step_word hk, map_eq_ok] at h
    obtain ⟨w, hw, rfl⟩ := h
    have ht : t.renamedAs f .instructionWord = t := rfl
    have hfirst : renamed f ⟨half .instructions k first, some m, st⟩ =
        ⟨half .instructions k first, some (m.renamed f), st.renamed f⟩ := rfl
    have hlength : ((some (m.renamed f)).getD {}).length = ((some m).getD {}).length := rfl
    rw [role_half_instructions, renamed_due, hfirst, step_word hk, count_renamed, ht, hlength, hw]
    rfl

theorem run_renamed (hr : r.Regular) (h : run settings r ts = .ok r') :
    run settings (r.renamed f) (renameNames settings f r ts) = .ok (r'.renamed f) := by
  induction ts generalizing r with
  | nil => cases h; rfl
  | cons t ts ih =>
    rw [run, List.foldlM_cons, bind_eq_ok] at h
    obtain ⟨r₁, h₁, h⟩ := h
    rw [renameNames, h₁, run, List.foldlM_cons, step_renamed hr h₁]
    exact ih (hr.step h₁) h

/-- **The program that is read has the other names.** -/
theorem parse_renamed (h : Store.parse settings ts = .ok s) :
    Store.parse settings (renameNames settings f {} ts) = .ok (s.renamed f) := by
  obtain ⟨r, hrun, hr⟩ := bind_eq_ok.1 h
  obtain ⟨hremaining, rfl⟩ := PartialProgram.finish_eq_ok.1 hr
  refine bind_eq_ok.2 ⟨r.renamed f, run_renamed .start hrun, PartialProgram.finish_eq_ok.2 ⟨?_, ?_⟩⟩
  · exact (State.remaining_renamed r.state).trans hremaining
  · exact finished_renamed r

end Reading

/-! ### Names told apart -/

/-- A function that tells the names apart that are looked at keeps the question whether one of them
is in a list of them. -/
theorem mem_map_iff_of_injOn {A : Set String} (hf : Set.InjOn f A) {names : List String}
    (hnames : ∀ name ∈ names, name ∈ A) {name : String} (hname : name ∈ A) :
    f name ∈ names.map f ↔ name ∈ names := by
  constructor
  · intro h
    obtain ⟨name', hmem, heq⟩ := List.mem_map.1 h
    rwa [← hf (hnames name' hmem) hname heq]
  · exact List.mem_map_of_mem

theorem entriesNamed_renamed {A : Set String} (hf : Set.InjOn f A) {es : List Entry}
    (hes : ∀ e ∈ es, e.name ∈ A) {name : String} (hname : name ∈ A) :
    entriesNamed (f name) (es.map (Entry.renamed f)) =
      (entriesNamed name es).map (Entry.renamed f) := by
  rw [entriesNamed, List.filter_map, entriesNamed]
  refine congrArg (List.map _) (List.filter_congr fun e he => ?_)
  show (f e.name == f name) = (e.name == name)
  rw [Bool.eq_iff_iff, beq_iff_eq, beq_iff_eq]
  exact hf.eq_iff (hes e he) hname

/-! ### Programs -/

namespace Store

variable {settings : Settings} {policy : PolicySetting} {s : Store} {m : Module} {x : Instruction}
  {name : String}

/-- The names in a program, those that are defined and those that are used. -/
def names (s : Store) : List String := s.definedNames ++ usedNames s.modules

theorem entries_renamed (s : Store) : (s.renamed f).entries = s.entries.map (Entry.renamed f) := by
  refine entries_map (φ := Module.renamed f) (fun _ => rfl) (fun m d => ?_) s.modules
  rw [Definition.entryIn?, Definition.entryIn?, Option.map_map]
  rfl

theorem definedNames_renamed (s : Store) : (s.renamed f).definedNames = s.definedNames.map f := by
  simp only [definedNames, renamed, Module.renamed, List.flatMap_map, List.map_flatMap,
    List.map_map]
  rfl

theorem usedNames_renamed (s : Store) :
    usedNames (s.renamed f).modules = (usedNames s.modules).map f := by
  simp only [usedNames, renamed, Module.renamed, List.flatMap_map, List.map_flatMap, List.map_map]
  rfl

theorem mem_names_of_use {u : Use} (hm : m ∈ s.modules) (hu : u ∈ m.uses) : u.name ∈ s.names :=
  List.mem_append_right _ (List.mem_flatMap.2 ⟨m, hm, List.mem_map_of_mem hu⟩)

/-- **A name stands for what it stood for.** -/
theorem addressOf_renamed (h : s.AsRead settings) (hf : Set.InjOn f {name | name ∈ s.names})
    (hname : name ∈ s.names) :
    (s.renamed f).addressOf policy (f name) = s.addressOf policy name := by
  have hes : ∀ e ∈ s.entries, e.name ∈ {name | name ∈ s.names} := by
    intro e he
    refine List.mem_append_left _ ?_
    rw [← h.map_name_entries]
    exact List.mem_map_of_mem he
  rw [addressOf, entries_renamed, entriesNamed_renamed hf hes hname, PolicySetting.choose_map,
    Option.map_map]
  rfl

/-- An address picks the use of a name that is defined as it did with the old names. -/
theorem exists_use_renamed (hf : Set.InjOn f {name | name ∈ s.names}) (hm : m ∈ s.modules)
    (address : Int) :
    (∃ (k : Nat) (u : Use), address = k ∧ (m.renamed f).uses[k]? = some u ∧
      u.name ∈ (s.renamed f).definedNames) ↔
    ∃ (k : Nat) (u : Use), address = k ∧ m.uses[k]? = some u ∧ u.name ∈ s.definedNames := by
  have hdefined : ∀ name ∈ s.definedNames, name ∈ {name | name ∈ s.names} := fun _ =>
    List.mem_append_left _
  have huse (k : Nat) : (m.renamed f).uses[k]? = m.uses[k]?.map (Use.renamed f) :=
    List.getElem?_map ..
  rw [definedNames_renamed]
  constructor
  · rintro ⟨k, u', hk, hu', hname⟩
    obtain ⟨u, hu, rfl⟩ := Option.map_eq_some_iff.1 ((huse k).symm.trans hu')
    have hused := mem_names_of_use hm (List.mem_of_getElem? hu)
    exact ⟨k, u, hk, hu, (mem_map_iff_of_injOn hf hdefined hused).1 hname⟩
  · rintro ⟨k, u, hk, hu, hname⟩
    exact ⟨k, u.renamed f, hk, (huse k).trans (congrArg _ hu), List.mem_map_of_mem hname⟩

/-- **A program is linkable** as it was with the old names. -/
theorem linkable_renamed (hf : Set.InjOn f {name | name ∈ s.names}) :
    (s.renamed f).Linkable settings ↔ s.Linkable settings := by
  have hmachine (m : Module) :
      (∀ d ∈ (m.renamed f).definitions, d.InMachine settings (m.renamed f)) ↔
        ∀ d ∈ m.definitions, d.InMachine settings m := List.forall_mem_map
  have hdistinct : (s.renamed f).definedNames.Nodup ↔ s.definedNames.Nodup := by
    rw [definedNames_renamed]
    refine ⟨List.Nodup.of_map f, fun h => h.map_on fun a ha b hb => ?_⟩
    exact hf (List.mem_append_left _ ha) (List.mem_append_left _ hb)
  constructor
  · intro hl
    refine ⟨fun m hm => ?_, fun hp => hdistinct.1 (hl.distinct hp), fun m hm x hx hk => ?_,
      List.forall_mem_map.1 hl.relative⟩
    · exact (hmachine m).1 (List.forall_mem_map.1 hl.defined m hm)
    · exact (exists_use_renamed hf hm x.address).1
        (List.forall_mem_map.1 hl.resolved m hm x hx hk)
  · intro hl
    refine ⟨List.forall_mem_map.2 fun m hm => ?_, fun hp => hdistinct.2 (hl.distinct hp),
      List.forall_mem_map.2 fun m hm x hx hk => ?_, List.forall_mem_map.2 hl.relative⟩
    · exact (hmachine m).2 (hl.defined m hm)
    · exact (exists_use_renamed hf hm x.address).2 (hl.resolved m hm x hx hk)

/-- An instruction gets the address that it got with the old names. -/
theorem finalAddress?_renamed (h : s.AsRead settings) (hf : Set.InjOn f {name | name ∈ s.names})
    (hm : m ∈ s.modules) (x : Instruction) :
    (m.renamed f).finalAddress? ((s.renamed f).addressOf policy) x =
      m.finalAddress? (s.addressOf policy) x := by
  unfold Module.finalAddress?
  cases x.classification with
  | immediate => rfl
  | absolute => rfl
  | relative => rfl
  | external =>
    have huses : elementAt? (m.renamed f).uses x.address = _ := elementAt?_map (Use.renamed f) _ _
    dsimp only
    rw [huses]
    cases hu : elementAt? m.uses x.address with
    | none => rfl
    | some u => exact addressOf_renamed h hf (mem_names_of_use hm (mem_of_elementAt? hu))

/-- **The words are the same** under other names. -/
theorem words_image_renamed (h : s.AsRead settings) (hf : Set.InjOn f {name | name ∈ s.names}) :
    ((s.renamed f).image policy).words = (s.image policy).words := by
  have hinstructions : ((s.renamed f).image policy).instructions =
      (s.image policy).instructions := by
    rw [instructions_image, instructions_image, renamed, List.flatMap_map, List.flatMap_def,
      List.flatMap_def]
    refine congrArg List.flatten (List.map_congr_left fun m hm => ?_)
    refine List.map_congr_left fun x _ => ?_
    exact congrArg (fun a : Option Int => x.linkedAt (a.getD x.address))
      (finalAddress?_renamed h hf hm x)
  exact congrArg (List.map Instruction.word) hinstructions

end Store

/-! ### Warnings -/

namespace Module

variable {A : Set String} {names : List String} {m : Module}

theorem sizeWarnings_renamed (m : Module) :
    (m.renamed f).sizeWarnings = m.sizeWarnings.map (Warning.renamed f) := by
  show (m.definitions.map (Definition.renamed f)).filterMap _ = _
  rw [List.filterMap_map, sizeWarnings, List.map_filterMap]
  refine congrArg (fun g => m.definitions.filterMap g) (funext fun d => ?_)
  show (d.renamed f).beyondWarning? (m.renamed f) = (d.beyondWarning? m).map _
  have hrelative : (d.renamed f).relative = d.relative := rfl
  unfold Definition.beyondWarning?
  rw [hrelative]
  cases d.relative with
  | none => rfl
  | some offset =>
    show (if (m.length : Int) ≤ offset then _ else none) = Option.map _ (if _ then _ else none)
    split <;> rfl

theorem unusedWarnings_renamed (hf : Set.InjOn f A) (hnames : ∀ name ∈ names, name ∈ A)
    (hm : ∀ d ∈ m.definitions, d.name ∈ A) :
    (m.renamed f).unusedWarnings (names.map f) =
      (m.unusedWarnings names).map (Warning.renamed f) := by
  have hfilter : m.definitions.filter (fun d => !(names.map f).contains (f d.name)) =
      m.definitions.filter fun d => !names.contains d.name := by
    refine List.filter_congr fun d hd => congrArg not ?_
    rw [Bool.eq_iff_iff, List.contains_iff_mem, List.contains_iff_mem]
    exact mem_map_iff_of_injOn hf hnames (hm d hd)
  show ((m.definitions.map (Definition.renamed f)).filter _).map _ = _
  rw [List.filter_map, List.map_map, unusedWarnings, List.map_map, ← hfilter]
  rfl

theorem unreferencedWarnings_renamed (m : Module) :
    (m.renamed f).unreferencedWarnings = m.unreferencedWarnings.map (Warning.renamed f) := by
  show ((m.uses.map (Use.renamed f)).zipIdx.filter _).map _ = _
  rw [List.zipIdx_map, List.filter_map, List.map_map, unreferencedWarnings, List.map_map]
  rfl

/-- **The warnings are those about the other names.** -/
theorem warnings_renamed (hf : Set.InjOn f A) (hnames : ∀ name ∈ names, name ∈ A)
    (hm : ∀ d ∈ m.definitions, d.name ∈ A) (settings : Settings) :
    (m.renamed f).warnings settings (names.map f) =
      (m.warnings settings names).map (Warning.renamed f) := by
  rw [warnings, warnings, sizeWarnings_renamed, unusedWarnings_renamed hf hnames hm,
    unreferencedWarnings_renamed, List.map_append]
  split
  · rw [List.map_append]
  · rfl

end Module

theorem warningsOf_renamed {s : Store} (hf : Set.InjOn f {name | name ∈ s.names})
    (settings : Settings) :
    warningsOf settings (s.renamed f).modules =
      (warningsOf settings s.modules).map (Warning.renamed f) := by
  have hused : ∀ name ∈ usedNames s.modules, name ∈ {name | name ∈ s.names} := fun _ =>
    List.mem_append_right _
  have hdefined {m : Module} (hm : m ∈ s.modules) :
      ∀ d ∈ m.definitions, d.name ∈ {name | name ∈ s.names} := fun d hd =>
    List.mem_append_left _ (List.mem_flatMap.2 ⟨m, hm, List.mem_map_of_mem hd⟩)
  rw [warningsOf, Store.usedNames_renamed, Store.renamed, List.flatMap_map, warningsOf,
    List.map_flatMap, List.flatMap_def, List.flatMap_def]
  refine congrArg List.flatten (List.map_congr_left fun m hm => ?_)
  exact Module.warnings_renamed hf hused (hdefined hm) settings

/-! ### Links -/

variable {settings : Settings} {tokens : List Token} {s : Store}

/-- **Names matter only through equality.**  A program whose names are replaced by others, different
names by different ones, links as it did.  It has the same words, the same entries under the new
names, and the same warnings about the new names. -/
theorem link_renamed (hv : settings.IsValid) (hs : Store.parse settings tokens = .ok s)
    (hf : Set.InjOn f {name | name ∈ s.names}) :
    ((∃ r, (link settings (Reading.renameNames settings f {} tokens)).result = .ok r) ↔
      ∃ r, (link settings tokens).result = .ok r) ∧
    ∀ r r', (link settings tokens).result = .ok r →
      (link settings (Reading.renameNames settings f {} tokens)).result = .ok r' →
        r'.memory = r.memory ∧ r'.symbols.entries = r.symbols.entries.map (Entry.renamed f) ∧
          r'.warnings = r.warnings.map (Warning.renamed f) := by
  have h := Store.asRead_of_parse hs
  simp only [link_eq_ok_of_parse hv hs, link_eq_ok_of_parse hv (Reading.parse_renamed hs),
    Store.linkable_renamed hf]
  refine ⟨⟨?_, ?_⟩, ?_⟩
  · rintro ⟨_, hl, -⟩
    exact ⟨_, hl, rfl⟩
  · rintro ⟨_, hl, -⟩
    exact ⟨_, hl, rfl⟩
  · rintro _ _ ⟨-, rfl⟩ ⟨-, rfl⟩
    refine ⟨congrArg MemoryMap.mk (Store.words_image_renamed h hf), ?_, ?_⟩
    · rw [entries_ofStore, entries_ofStore, Store.entries_renamed]
    · show warningsOf settings _ = (warningsOf settings _).map _
      rw [warningsOf_image, warningsOf_image, warningsOf_renamed hf]

/-- The symbol of `forwardUse` may be called like a type of instructions. -/
theorem link_renamed_forwardUse :
    Settings.IsValid {} ∧ Store.parse {} forwardUse = .ok forwardUseStore ∧
      Set.InjOn (fun name => if name = "z" then "R" else name)
        {name | name ∈ forwardUseStore.names} ∧
      ∃ r, (link {} (Token.inLine ["0", "1", "R", "2", "R", "1001", "E", "2000", "1", "R", "0",
        "0", "1", "A", "4005"])).result = .ok r ∧
          r.memory.words = [1001, 2002, 4005] ∧ r.symbols.entries = [⟨"R", 2, 1⟩] := by
  have hv : Settings.IsValid {} := by decide
  have hs : Store.parse {} forwardUse = .ok forwardUseStore := by rfl
  have hz : ∀ name ∈ forwardUseStore.names, name = "z" := by decide
  have hf : Set.InjOn (fun name => if name = "z" then "R" else name)
      {name | name ∈ forwardUseStore.names} := fun a ha b hb _ => (hz a ha).trans (hz b hb).symm
  have hr : (link {} forwardUse).result = .ok (.ofStore {} forwardUseStore) := by rfl
  have htokens : Reading.renameNames {} (fun name => if name = "z" then "R" else name) {}
      forwardUse = Token.inLine ["0", "1", "R", "2", "R", "1001", "E", "2000", "1", "R", "0", "0",
        "1", "A", "4005"] := by rfl
  obtain ⟨hlinks, hall⟩ := link_renamed hv hs hf
  obtain ⟨r', hr'⟩ := hlinks.2 ⟨_, hr⟩
  obtain ⟨hmemory, hentries, -⟩ := hall _ r' hr hr'
  rw [htokens] at hr'
  exact ⟨hv, hs, hf, r', hr', congrArg MemoryMap.words hmemory, hentries⟩

end Linkage
