import Linkage.Listing
import Linkage.Proofs.Warnings

/-!
# Locations — where a token stands carries no meaning

Tokens carry the places where they were read, and from them definitions, uses, instructions and
failures get theirs.  `moved g` replaces every place `l` by `g l`, for any `g`, in each of these.
No stage of a link looks at a place: each commutes with `moved g`, whether it succeeds or fails
(`Reading.step_moved`, `parse_moved`, `firstPass_moved`, `secondPass_moved`), and so does the link
(`link_moved`).

A listing shows no places (`LinkResult.listing_moved`), and the wording of an error shows its own in
front of the rest (`LinkError.text_eq`).  Two texts with the same words have the same tokens but for
the places (`map_moved_scan`), so **links of the two differ in nothing else** (`linkText_layout`).
-/

namespace Linkage

variable {g : Location → Location}

/-! ### Other places -/

/-- The token at another place. -/
def Token.moved (g : Location → Location) (t : Token) : Token := { t with location := g t.location }

/-- The definition at another place. -/
def Definition.moved (g : Location → Location) (d : Definition) : Definition :=
  { d with location := d.location.map g }

/-- The use at another place. -/
def Use.moved (g : Location → Location) (u : Use) : Use := { u with location := u.location.map g }

/-- The instruction at another place. -/
def Instruction.moved (g : Location → Location) (x : Instruction) : Instruction :=
  { x with location := x.location.map g }

/-- The module with its parts at other places. -/
def Module.moved (g : Location → Location) (m : Module) : Module :=
  { m with
    definitions := m.definitions.map (Definition.moved g)
    uses := m.uses.map (Use.moved g)
    instructions := m.instructions.map (Instruction.moved g) }

/-- The program with its parts at other places. -/
def Store.moved (g : Location → Location) (s : Store) : Store := ⟨s.modules.map (Module.moved g)⟩

/-- The failure, at another place where it is an error of the program. -/
def Failure.moved (g : Location → Location) : Failure → Failure
  | .link e => .link { e with location := e.location.map g }
  | f       => f

/-- The result of a link with its program at other places. -/
def LinkResult.moved (g : Location → Location) (r : LinkResult) : LinkResult :=
  { r with store := r.store.moved g }

/-! ### Results at other places -/

section

variable {α β α' β' σ τ γ γ' : Type}

/-- A result with another view of its value, and with its failure at another place. -/
def movedResult (g : Location → Location) (φ : α → β) (r : Except Failure α) : Except Failure β :=
  (r.map φ).mapError (Failure.moved g)

@[simp] theorem movedResult_ok (φ : α → β) (a : α) :
    movedResult g φ (.ok a) = .ok (φ a) := rfl

@[simp] theorem movedResult_error (φ : α → β) (f : Failure) :
    movedResult g φ (.error f) = .error (f.moved g) := rfl

/-- Operations that commute with moving do so one after the other. -/
theorem movedResult_bind {φ : α → α'} {ψ : β → β'} {k : α → Except Failure β}
    {k' : α' → Except Failure β'} (h : ∀ a, k' (φ a) = movedResult g ψ (k a))
    (x : Except Failure α) : movedResult g φ x >>= k' = movedResult g ψ (x >>= k) := by
  cases x with
  | error e => rfl
  | ok a => exact h a

theorem map_movedResult (k : α → β) (x : Except Failure α) :
    (movedResult g id x).map k = movedResult g id (x.map k) := by
  cases x <;> rfl

theorem foldlM_movedResult {φ : β → β'} {χ : γ → γ'} {step : β → γ → Except Failure β}
    {step' : β' → γ' → Except Failure β'}
    (h : ∀ b c, step' (φ b) (χ c) = movedResult g φ (step b c)) (cs : List γ) (b : β) :
    (cs.map χ).foldlM step' (φ b) = movedResult g φ (cs.foldlM step b) := by
  induction cs generalizing b with
  | nil => rfl
  | cons c cs ih =>
    rw [List.map_cons, List.foldlM_cons, List.foldlM_cons, h]
    exact movedResult_bind ih (step b c)

/-- The outcome with another view of what was reached, and with its failure at another place. -/
def Outcome.moved (g : Location → Location) (φ : σ → τ) (o : Outcome σ α) : Outcome τ α :=
  ⟨φ o.reached, o.events, movedResult g id o.result⟩

/-- A sweep commutes with moving when each of its visits does. -/
theorem sweep_moved {visit : Nat → α → σ → Outcome σ α} {visit' : Nat → α → τ → Outcome τ α}
    {φ : σ → τ} (h : ∀ i a x, visit' i a (φ x) = (visit i a x).moved g φ) (i : Nat) (a : α)
    (xs : List σ) :
    sweep visit' i a (xs.map φ) = (sweep visit i a xs).moved g (List.map φ) := by
  induction xs generalizing i a with
  | nil => rfl
  | cons x xs ih =>
    have hx := h i a x
    cases hr : (visit i a x).result with
    | error e =>
      have hr' : (visit' i a (φ x)).result = .error (e.moved g) := by
        rw [hx, Outcome.moved, hr, movedResult_error]
      rw [List.map_cons, sweep_cons_error hr', sweep_cons_error hr, hx]
      rfl
    | ok b =>
      have hr' : (visit' i a (φ x)).result = .ok b := by rw [hx, Outcome.moved, hr]; rfl
      rw [List.map_cons, sweep_cons_ok hr', sweep_cons_ok hr, ih, hx]
      rfl

end

/-! ### Reading -/

/-- The state with its token at another place. -/
def Reading.State.moved (g : Location → Location) (s : Reading.State) : Reading.State :=
  { s with pending := s.pending.map (Token.moved g) }

/-- The reading with what it holds at other places. -/
def Reading.moved (g : Location → Location) (r : Reading) : Reading :=
  ⟨r.state.moved g, r.current.map (Module.moved g), r.store.moved g⟩

theorem Module.length_moved (m : Module) : (m.moved g).length = m.length := List.length_map _

theorem Store.append_moved (s : Store) (m : Module) :
    (s.moved g).append (m.moved g) = (s.append m).moved g :=
  append_map (φ := Module.moved g) (fun _ _ _ => rfl) Module.length_moved s m

theorem Module.addDefinition_moved (m : Module) (d : Definition) :
    (m.moved g).addDefinition (d.moved g) = (m.addDefinition d).moved g :=
  congrArg (fun ds => { m.moved g with definitions := ds }) (map_concat (.moved g) m.definitions d)

theorem Module.addUse_moved (m : Module) (u : Use) :
    (m.moved g).addUse (u.moved g) = (m.addUse u).moved g :=
  congrArg (fun us => { m.moved g with uses := us }) (map_concat (.moved g) m.uses u)

theorem Module.addInstruction_moved (m : Module) (x : Instruction) :
    (m.moved g).addInstruction (x.moved g) = (m.addInstruction x).moved g :=
  congrArg (fun xs => { m.moved g with instructions := xs })
    (map_concat (.moved g) m.instructions x)

namespace Reading

theorem number_moved (cause : String → Cause) (t : Token) (i : Nat) :
    number cause (t.moved g) i = movedResult g id (number cause t i) := by
  have hchars : (t.moved g).chars = t.chars := rfl
  unfold number
  rw [hchars]
  split
  · cases Numeral.read t.chars <;> rfl
  · rfl

theorem classification_moved (t : Token) (i : Nat) :
    classification (t.moved g) i = movedResult g id (classification t i) := by
  have hchars : (t.moved g).chars = t.chars := rfl
  unfold classification
  rw [hchars]
  split
  · rfl
  · split <;> rfl

theorem opcodeAndAddress_moved (settings : Settings) (t : Token) (i j : Nat) :
    opcodeAndAddress settings (t.moved g) i j =
      movedResult g id (opcodeAndAddress settings t i j) := by
  have hchars : (t.moved g).chars = t.chars := rfl
  unfold opcodeAndAddress
  rw [hchars]
  split
  · rfl
  · rfl
  · next c d address _ =>
    split
    · rfl
    · cases Numeral.read (d :: address) with
      | error e => rfl
      | ok n =>
        show (if settings.maxAddress < (n : Int) then _ else _) =
          movedResult g id (if settings.maxAddress < (n : Int) then _ else _)
        split <;> rfl

theorem State.expecting_moved (s : State) (n : Int) :
    (s.moved g).expecting n = (s.expecting n).moved g := by
  unfold expecting
  split <;> rfl

theorem State.consumed_moved (s : State) (pending : Option Token) :
    (s.moved g).consumed (pending.map (Token.moved g)) = (s.consumed pending).moved g := by
  have hremaining : (s.moved g).remaining = s.remaining := rfl
  unfold consumed
  rw [hremaining]
  split <;> rfl

theorem finished_moved (r : Reading) : (r.moved g).finished = r.finished.moved g := by
  obtain ⟨state, current, store⟩ := r
  cases current with
  | none => rfl
  | some m => exact store.append_moved m

theorem filling_moved (r : Reading) : (r.moved g).filling = r.filling.moved g := by
  obtain ⟨state, current, store⟩ := r
  cases current <;> rfl

theorem firstOfPair_moved (r : Reading) (t : Token) :
    (r.moved g).firstOfPair (t.moved g) = (r.firstOfPair t).moved g := by
  obtain ⟨⟨part, remaining, pending⟩, current, store⟩ := r
  cases pending <;> rfl

theorem consume_moved (r : Reading) (pending : Option Token) :
    (r.moved g).consume (pending.map (Token.moved g)) = (r.consume pending).moved g :=
  congrArg (fun state => { r.moved g with state := state }) (r.state.consumed_moved pending)

theorem complete_moved (r : Reading) (m : Module) :
    (r.moved g).complete (m.moved g) = (r.complete m).moved g :=
  congrArg (fun state => { r.moved g with state := state, current := some (m.moved g) })
    (r.state.consumed_moved none)

/-- **A step does not look at places.** -/
theorem step_moved (settings : Settings) (r : Reading) (t : Token) :
    (r.moved g).step settings (t.moved g) = movedResult g (moved g) (r.step settings t) := by
  have hrole : (r.moved g).state.role = r.state.role := rfl
  have hcount : (r.moved g).store.count = r.store.count := List.length_map _
  unfold step
  rw [hrole, hcount]
  cases r.state.role with
  | count =>
    dsimp only
    rw [number_moved]
    refine movedResult_bind (fun n => ?_) _
    have hpart : (r.moved g).state.part = r.state.part := rfl
    have hstate : (r.moved g).state.expecting n = (r.state.expecting n).moved g :=
      r.state.expecting_moved n
    rw [id, hpart, hstate, finished_moved]
    cases r.state.part <;> rfl
  | definitionSymbol => exact congrArg Except.ok (r.consume_moved (some t))
  | definitionLocation =>
    dsimp only
    rw [number_moved, firstOfPair_moved, filling_moved]
    refine movedResult_bind (fun n => congrArg Except.ok ?_) _
    rw [← r.complete_moved, ← Module.addDefinition_moved]
    rfl
  | use =>
    refine congrArg Except.ok ?_
    rw [filling_moved, ← r.complete_moved, ← Module.addUse_moved]
    rfl
  | instructionType =>
    dsimp only
    rw [classification_moved]
    exact movedResult_bind (fun _ => congrArg Except.ok (r.consume_moved (some t))) _
  | instructionWord =>
    dsimp only
    rw [firstOfPair_moved, classification_moved, filling_moved]
    refine movedResult_bind (fun kind => ?_) _
    rw [Module.length_moved, opcodeAndAddress_moved]
    refine movedResult_bind (fun w => congrArg Except.ok ?_) _
    rw [← r.complete_moved, ← Module.addInstruction_moved]
    rfl

theorem finish_moved (r : Reading) (last : Option Token) :
    (r.moved g).finish (last.map (Token.moved g)) =
      movedResult g (Store.moved g) (r.finish last) := by
  have hremaining : (r.moved g).state.remaining = r.state.remaining := rfl
  have hcount : (r.moved g).store.count = r.store.count := List.length_map _
  have hlocation : (last.map (Token.moved g)).map Token.location =
      (last.map Token.location).map g := by
    rw [Option.map_map, Option.map_map]
    rfl
  unfold finish
  rw [hremaining, hcount, finished_moved, hlocation]
  split
  · rfl
  · split <;> rfl

/-- **Reading does not look at places.** -/
theorem parse_moved (settings : Settings) (ts : List Token) :
    Store.parse settings (ts.map (Token.moved g)) =
      movedResult g (Store.moved g) (Store.parse settings ts) := by
  have hrun : run settings {} (ts.map (Token.moved g)) =
      movedResult g (moved g) (run settings {} ts) :=
    foldlM_movedResult (φ := moved g) (χ := Token.moved g) (step_moved settings) ts {}
  rw [Store.parse, hrun, List.getLast?_map]
  exact movedResult_bind (fun r => r.finish_moved ts.getLast?) _

end Reading

/-! ### The passes -/

theorem SymbolTable.define_moved (t : SymbolTable) (e : Entry) (location : Option Location) :
    t.define e (location.map g) = movedResult g id (t.define e location) := by
  unfold define
  split
  · rfl
  · split <;> rfl

theorem addressBeyond_moved (settings : Settings) (a : Int) (location : Option Location)
    (i : Int) :
    addressBeyond settings a (location.map g) i =
      (addressBeyond settings a location i).moved g := by
  unfold addressBeyond
  split <;> rfl

theorem Module.enterDefinition_moved (settings : Settings) (m : Module) (i : Nat)
    (t : SymbolTable) (d : Definition) :
    (m.moved g).enterDefinition settings i t (d.moved g) =
      (m.enterDefinition settings i t d).moved g (Definition.moved g) := by
  have hentry : (d.moved g).entryIn? (m.moved g) = d.entryIn? m := rfl
  have hlocation : (d.moved g).location = d.location.map g := rfl
  cases he : d.entryIn? m with
  | none => rw [enterDefinition_of_none (hentry.trans he), enterDefinition_of_none he]; rfl
  | some e =>
    have hlocated : (d.moved g).located (m.moved g) = (d.located m).moved g := by
      unfold Definition.located
      rw [hentry, he]
      rfl
    rw [enterDefinition_eq (hentry.trans he), enterDefinition_eq he, hlocation,
      SymbolTable.define_moved, hlocated]
    split
    · exact congrArg (fun f => Outcome.mk _ _ (.error f)) (addressBeyond_moved ..)
    · cases t.define e d.location <;> rfl

theorem Module.externalAddress_moved (m : Module) (t : SymbolTable) (i : Nat) (x : Instruction) :
    (m.moved g).externalAddress t i (x.moved g) = movedResult g id (m.externalAddress t i x) := by
  have hlength : (m.moved g).uses.length = m.uses.length := List.length_map _
  have haddress : (x.moved g).address = x.address := rfl
  have huse : elementAt (m.moved g).uses x.address =
      movedResult g (Use.moved g) (elementAt m.uses x.address) := by
    have hmap : elementAt? (m.moved g).uses x.address = _ := elementAt?_map (Use.moved g) _ _
    unfold elementAt
    rw [hmap]
    cases elementAt? m.uses x.address <;> rfl
  unfold externalAddress
  rw [hlength, haddress, huse]
  split
  · rfl
  · cases elementAt m.uses x.address with
    | error e => rfl
    | ok u =>
      have hname : (u.moved g).name = u.name := rfl
      simp only [movedResult_ok, hname]
      cases t.lookup u.name <;> rfl

theorem Module.relocated_moved (m : Module) (t : SymbolTable) (i : Nat) (x : Instruction) :
    (m.moved g).relocated t i (x.moved g) =
      movedResult g (Instruction.moved g) (m.relocated t i x) := by
  have hclass : (x.moved g).classification = x.classification := rfl
  have hrelocate (a : Int) :
      (x.moved g).relocate a = movedResult g (Instruction.moved g) (x.relocate a) := by
    have hx : (x.moved g).relocated = x.relocated := rfl
    unfold Instruction.relocate
    rw [hx]
    split <;> rfl
  unfold relocated
  rw [hclass]
  cases x.classification with
  | immediate => rfl
  | absolute => rfl
  | relative => exact hrelocate _
  | external =>
    dsimp only
    rw [externalAddress_moved]
    exact movedResult_bind hrelocate _

theorem Module.linkInstruction_moved (settings : Settings) (t : SymbolTable) (m : Module) (i : Nat)
    (w : MemoryMap) (x : Instruction) :
    (m.moved g).linkInstruction settings t i w (x.moved g) =
      (m.linkInstruction settings t i w x).moved g (Instruction.moved g) := by
  unfold linkInstruction
  rw [relocated_moved]
  cases m.relocated t i x with
  | error e => rfl
  | ok y =>
    have hy : (y.moved g).address = y.address := rfl
    simp only [movedResult_ok, hy]
    split <;> rfl

/-- **The first pass does not look at places.** -/
theorem firstPass_moved (settings : Settings) (s : Store) :
    firstPass settings (s.moved g) = (firstPass settings s).moved g (Store.moved g) := by
  have hm (_ : Nat) (t : SymbolTable) (m : Module) :
      (m.moved g).enterDefinitions settings t =
        (m.enterDefinitions settings t).moved g (Module.moved g) := by
    have hds := sweep_moved (m.enterDefinition_moved settings (g := g)) 0 t m.definitions
    show Outcome.mapReached _ (sweep _ 0 t (m.definitions.map (Definition.moved g))) = _
    rw [hds]
    rfl
  have hms := sweep_moved hm 0 (.empty settings.policy) s.modules
  unfold firstPass
  rw [Store.moved]
  dsimp only
  rw [hms]
  exact congrArg (Outcome.mk _ _) (map_movedResult SymbolTable.freeze _)

/-- **The second pass does not look at places.** -/
theorem secondPass_moved (settings : Settings) (s : Store) (t : SymbolTable) :
    secondPass settings (s.moved g) t = (secondPass settings s t).moved g (Store.moved g) := by
  have hm (_ : Nat) (w : MemoryMap) (m : Module) :
      (m.moved g).linkInstructions settings t w =
        (m.linkInstructions settings t w).moved g (Module.moved g) := by
    have hxs := sweep_moved (m.linkInstruction_moved settings t (g := g)) 0 w m.instructions
    show Outcome.mapReached _ (sweep _ 0 w (m.instructions.map (Instruction.moved g))) = _
    rw [hxs]
    rfl
  have hms := sweep_moved hm 0 .empty s.modules
  unfold secondPass SymbolTable.requireFrozen
  cases t.frozen with
  | false => rfl
  | true =>
    show Outcome.mapReached _ (sweep _ 0 _ (s.modules.map (Module.moved g))) = _
    rw [hms]
    rfl

theorem Module.outline_moved (m : Module) : (m.moved g).outline = m.outline := by
  simp only [outline, moved, List.map_map]
  rfl

theorem collectWarnings_moved (settings : Settings) (s : Store) :
    collectWarnings settings (s.moved g).modules = collectWarnings settings s.modules := by
  refine collectWarnings_congr ?_ settings
  show (s.modules.map (Module.moved g)).map Module.outline = _
  rw [List.map_map]
  exact List.map_congr_left fun m _ => m.outline_moved

/-- The warnings are collected without an error of the program. -/
theorem movedResult_collectWarnings (settings : Settings) (ms : List Module) :
    movedResult g id (collectWarnings settings ms).result =
      (collectWarnings settings ms).result := by
  unfold collectWarnings
  split <;> rfl

/-- **A link does not look at places.** -/
theorem link_moved (settings : Settings) (ts : List Token) :
    (link settings (ts.map (Token.moved g))).result =
      movedResult g (LinkResult.moved g) (link settings ts).result := by
  rw [result_link, result_link, Reading.parse_moved]
  refine movedResult_bind (fun s => ?_) _
  rw [firstPass_moved]
  refine movedResult_bind (fun t => ?_) _
  have hfirst : ((firstPass settings s).moved g (Store.moved g)).reached =
      (firstPass settings s).reached.moved g := rfl
  simp only [hfirst, secondPass_moved]
  refine movedResult_bind (fun w => ?_) _
  have hsecond : ((secondPass settings (firstPass settings s).reached t).moved g
      (Store.moved g)).reached =
        (secondPass settings (firstPass settings s).reached t).reached.moved g := rfl
  simp only [id, hsecond, collectWarnings_moved]
  -- the warnings are the same on both sides, and so is a failure to collect them
  have hwarnings := movedResult_collectWarnings (g := g) settings
    (secondPass settings (firstPass settings s).reached t).reached.modules
  generalize (collectWarnings settings _).result = warnings at hwarnings ⊢
  cases warnings with
  | error e => exact congrArg Except.error (Except.error.inj hwarnings).symm
  | ok ws => rfl

/-! ### What is shown -/

theorem Module.listing_moved (m : Module) : (m.moved g).listing = m.listing := by
  have hlength : (m.moved g).length = m.length := m.length_moved
  have hdefinitions : (m.moved g).definitions.map (fun d => "\t" ++ d.text) =
      m.definitions.map fun d => "\t" ++ d.text := List.map_map
  have huses : (m.moved g).uses.map (fun u => "\t" ++ u.name) =
      m.uses.map fun u => "\t" ++ u.name := List.map_map
  have hinstructions : (m.moved g).instructions.map Instruction.listing =
      m.instructions.map Instruction.listing := List.map_map
  have hindex : (m.moved g).index = m.index := rfl
  have hstart : (m.moved g).start = m.start := rfl
  have hcounts : (m.moved g).definitions.length = m.definitions.length ∧
      (m.moved g).uses.length = m.uses.length := ⟨List.length_map _, List.length_map _⟩
  simp only [listing, endLocation, hindex, hstart, hlength, hcounts, hdefinitions, huses,
    hinstructions]

/-- **A listing shows no places.** -/
theorem LinkResult.listing_moved (r : LinkResult) (withModules : Bool) :
    (r.moved g).listing withModules = r.listing withModules := by
  cases withModules with
  | false => rfl
  | true =>
    have hmodule : Module.listing ∘ Module.moved g = Module.listing := by
      funext m
      rw [Function.comp_apply, Module.listing_moved]
    have hmodules : (r.store.moved g).modules.map Module.listing =
        r.store.modules.map Module.listing := by
      show (r.store.modules.map (Module.moved g)).map Module.listing = _
      rw [List.map_map, hmodule]
    show Linkage.listing (r.store.moved g).modules r.symbols r.memory =
      Linkage.listing r.store.modules r.symbols r.memory
    simp only [Linkage.listing, hmodules]

/-- An error at another place is worded in the same way there. -/
theorem LinkError.diagnostic_at (e : LinkError) (location : Option Location) :
    ({ e with location := location } : LinkError).diagnostic =
      { e.diagnostic with location := location } := by
  obtain ⟨cause, _, moduleIndex⟩ := e
  cases cause <;> rfl

/-- The place at the head of a wording, where there is one. -/
def Location.head : Option Location → String
  | some l => l.text ++ ": "
  | none   => ""

/-- The place of an error stands in front of its wording, which does not depend on it. -/
theorem LinkError.text_eq (e : LinkError) :
    e.text = Location.head e.location ++ ({ e with location := none } : LinkError).text := by
  have hlocation : e.diagnostic.location = e.location :=
    congrArg Diagnostic.location (e.diagnostic_at e.location)
  unfold text
  rw [e.diagnostic_at none]
  unfold Diagnostic.text
  rw [hlocation]
  cases e.location with
  | none => simp only [Location.head, String.empty_append]
  | some l => simp only [Location.head, String.append_assoc, String.empty_append]

/-! ### What differs only in its places -/

/-- Results that are the same at one place show the same. -/
theorem LinkResult.eq_of_moved {r r' : LinkResult} (h : r'.moved g = r.moved g) :
    r'.memory = r.memory ∧ r'.symbols = r.symbols ∧ r'.warnings = r.warnings ∧
      ∀ withModules, r'.listing withModules = r.listing withModules := by
  have hmemory := congrArg LinkResult.memory h
  have hsymbols := congrArg LinkResult.symbols h
  have hwarnings := congrArg LinkResult.warnings h
  refine ⟨hmemory, hsymbols, hwarnings, fun withModules => ?_⟩
  rw [← r'.listing_moved (g := g), h, listing_moved]

/-- Only errors of the program have a place. -/
theorem Failure.moved_of_ne {f : Failure} (hf : ∀ e, f ≠ .link e) : f.moved g = f := by
  cases f with
  | link e => exact absurd rfl (hf e)
  | _ => rfl

/-- Failures that are the same at one place are the same, or errors of the program that differ in
the place alone. -/
theorem Failure.eq_or_of_moved {f f' : Failure} (h : f'.moved g = f.moved g) :
    (∃ e location, f = .link e ∧ f' = .link { e with location := location }) ∨
      (∀ e, f ≠ .link e) ∧ f' = f := by
  by_cases hf : ∃ e, f = .link e
  · obtain ⟨e, rfl⟩ := hf
    cases f' with
    | link e' =>
      obtain ⟨cause, _, moduleIndex⟩ := e
      obtain ⟨cause', location, moduleIndex'⟩ := e'
      obtain ⟨rfl, -, rfl⟩ := LinkError.mk.inj (Failure.link.inj h)
      exact .inl ⟨_, location, rfl, rfl⟩
    | _ => cases h
  · have hf := not_exists.1 hf
    rw [Failure.moved_of_ne hf] at h
    refine .inr ⟨hf, ?_⟩
    cases f' with
    | link e' => exact absurd h.symm (hf _)
    | _ => exact h

/-! ### Texts with the same words -/

/-- The words of a text do not depend on its name. -/
theorem map_text_scan (source filename : String) :
    (Token.scan source filename).map Token.text =
      (lexemes Position.start source.toList).map fun lexeme => String.ofList lexeme.chars := by
  rw [← List.zipIdx_map_fst 0 (lexemes Position.start source.toList), List.map_map, Token.scan,
    List.map_map]
  rfl

/-- The tokens of a text, all put at one place, are a matter of its words. -/
theorem map_moved_scan (l : Location) (source filename : String) :
    (Token.scan source filename).map (Token.moved fun _ => l) =
      ((Token.scan source filename).map Token.text).zipIdx.map fun (w, i) => ⟨w, i, l⟩ := by
  rw [map_text_scan, List.zipIdx_map, List.map_map, Token.scan, List.map_map]
  rfl

variable {source filename source' filename' : String}

/-- Links of two texts with the same words are one link, seen from the tokens put at one place. -/
theorem movedResult_linkText (settings : Settings) (l : Location)
    (h : (Token.scan source filename).map Token.text =
      (Token.scan source' filename').map Token.text) :
    movedResult (fun _ => l) (LinkResult.moved fun _ => l)
        (linkText settings source filename).result =
      movedResult (fun _ => l) (LinkResult.moved fun _ => l)
        (linkText settings source' filename').result := by
  rw [linkText, linkText, ← link_moved, ← link_moved, map_moved_scan, map_moved_scan, h]

/-- **The layout of a text carries no meaning.**  Links of two texts with the same words both
succeed, and then give the same but for places, or both fail: with the same error of the program,
at places of their own, or with the same other failure. -/
theorem linkText_layout (settings : Settings)
    (h : (Token.scan source filename).map Token.text =
      (Token.scan source' filename').map Token.text) :
    (∃ r r', (linkText settings source filename).result = .ok r ∧
      (linkText settings source' filename').result = .ok r' ∧
        r'.memory = r.memory ∧ r'.symbols = r.symbols ∧ r'.warnings = r.warnings ∧
          ∀ withModules, r'.listing withModules = r.listing withModules) ∨
    (∃ e e' : LinkError, (linkText settings source filename).result = .error (.link e) ∧
      (linkText settings source' filename').result = .error (.link e') ∧
        e'.diagnostic = { e.diagnostic with location := e'.location } ∧
          ∃ rest, e.text = Location.head e.location ++ rest ∧
            e'.text = Location.head e'.location ++ rest) ∨
    ∃ f, (∀ e, f ≠ .link e) ∧ (linkText settings source filename).result = .error f ∧
      (linkText settings source' filename').result = .error f := by
  have hmoved := movedResult_linkText settings ⟨filename, 1, 1⟩ h
  cases hr : (linkText settings source filename).result with
  | ok r =>
    cases hr' : (linkText settings source' filename').result with
    | error f => rw [hr, hr'] at hmoved; cases hmoved
    | ok r' =>
      rw [hr, hr'] at hmoved
      exact .inl ⟨r, r', rfl, rfl, LinkResult.eq_of_moved (Except.ok.inj hmoved).symm⟩
  | error f =>
    cases hr' : (linkText settings source' filename').result with
    | ok r' => rw [hr, hr'] at hmoved; cases hmoved
    | error f' =>
      rw [hr, hr'] at hmoved
      rcases Failure.eq_or_of_moved (Except.error.inj hmoved).symm with
        ⟨e, location, rfl, rfl⟩ | ⟨hother, rfl⟩
      · exact .inr (.inl ⟨e, _, rfl, rfl, e.diagnostic_at location, _, e.text_eq,
          LinkError.text_eq { e with location := location }⟩)
      · exact .inr (.inr ⟨f', hother, rfl, rfl⟩)

theorem scan_oneLine : Token.scan "0 0 1 E 1000" "a" =
    [⟨"0", 0, ⟨"a", 1, 1⟩⟩, ⟨"0", 1, ⟨"a", 1, 3⟩⟩, ⟨"1", 2, ⟨"a", 1, 5⟩⟩, ⟨"E", 3, ⟨"a", 1, 7⟩⟩,
      ⟨"1000", 4, ⟨"a", 1, 9⟩⟩] := by cbv

theorem scan_threeLines : Token.scan "0 0\n1 E\n1000" "b" =
    [⟨"0", 0, ⟨"b", 1, 1⟩⟩, ⟨"0", 1, ⟨"b", 1, 3⟩⟩, ⟨"1", 2, ⟨"b", 2, 1⟩⟩, ⟨"E", 3, ⟨"b", 2, 3⟩⟩,
      ⟨"1000", 4, ⟨"b", 3, 1⟩⟩] := by cbv

/-- An instruction that picks a use of an empty list, written on one line and on three. -/
theorem linkText_layout_lines :
    (Token.scan "0 0 1 E 1000" "a").map Token.text =
        (Token.scan "0 0\n1 E\n1000" "b").map Token.text ∧
      ∃ e e' : LinkError, (linkText {} "0 0 1 E 1000" "a").result = .error (.link e) ∧
        (linkText {} "0 0\n1 E\n1000" "b").result = .error (.link e') ∧
          e.location = some ⟨"a", 1, 9⟩ ∧ e'.location = some ⟨"b", 3, 1⟩ ∧
            e'.diagnostic = { e.diagnostic with location := some ⟨"b", 3, 1⟩ } := by
  have hsame : (Token.scan "0 0 1 E 1000" "a").map Token.text =
      (Token.scan "0 0\n1 E\n1000" "b").map Token.text := by
    rw [scan_oneLine, scan_threeLines]
    rfl
  have he : (linkText {} "0 0 1 E 1000" "a").result =
      .error (.link ⟨.useOutOfRange 0 0 0, some ⟨"a", 1, 9⟩, 0⟩) := by
    rw [linkText, scan_oneLine]
    rfl
  have he' : (linkText {} "0 0\n1 E\n1000" "b").result =
      .error (.link ⟨.useOutOfRange 0 0 0, some ⟨"b", 3, 1⟩, 0⟩) := by
    rw [linkText, scan_threeLines]
    rfl
  refine ⟨hsame, _, _, he, he', rfl, rfl, ?_⟩
  have hlayout := linkText_layout {} hsame
  rw [he, he'] at hlayout
  rcases hlayout with ⟨r, _, hr, -⟩ | ⟨e, e', h, h', hd, -⟩ | ⟨f, hf, h, -⟩
  · cases hr
  · cases h
    cases h'
    exact hd
  · cases h
    exact absurd rfl (hf _)

end Linkage
