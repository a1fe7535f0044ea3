import Linkage.Event
import Linkage.Reading.State
import Linkage.Store

/-!
# Reading — from tokens to modules

    Program      := Module*
    Module       := Count Definition* Count Use* Count Instruction*
    Definition   := Symbol Number
    Use          := Symbol
    Instruction  := Type Word

A `Reading` is the state of a reader, the module it is filling and the store of the modules before
that one.  `Reading.step` takes one token; a module is placed into the store when the count that
opens the next one has been read, and the last module when the input ends.

`Store.parse` reads a whole list of tokens.  It fails at the first token that cannot have its
role, or at the end when tokens are still expected.
-/

namespace Linkage

/-- How far a program has been read. -/
structure Reading where
  state : Reading.State := {}
  /-- The module that is being filled; there is none before the first token. -/
  current : Option Module := none
  /-- The modules before the current one. -/
  store : Store := .empty
  deriving DecidableEq, Repr

namespace Reading

/-! ### What one token says -/

/-- The failure that a token of module `i` gives rise to. -/
def rejected (token : Token) (i : Nat) (cause : Cause) : Failure :=
  .link ⟨cause, some token.location, i⟩

/-- The number that a token writes. -/
def number (cause : String → Cause) (token : Token) (i : Nat) : Except Failure Nat :=
  if Numeral.isNumeral token.chars then (Numeral.read token.chars).mapError .numeral
  else .error (rejected token i (cause token.text))

/-- The classification that the first character of a token stands for. -/
def classification (token : Token) (i : Nat) : Except Failure Classification :=
  match token.chars with
  | []     => .error (.fault .emptyType)
  | c :: _ =>
    match Classification.ofLetter? c with
    | some k => .ok k
    | none   => .error (rejected token i (.invalidType token.text))

/-- The opcode and the address that a token writes as the word of an instruction: one digit, then
the digits of an address that the machine has. -/
def opcodeAndAddress (settings : Settings) (token : Token) (i instruction : Nat) :
    Except Failure (Nat × Nat) :=
  match token.chars with
  | [] | [_]          => .error (rejected token i (.shortWord token.text))
  | c :: d :: address =>
    if !Numeral.isNumeral token.chars then .error (rejected token i (.nonDigitWord token.text))
    else do
      let n ← (Numeral.read (d :: address)).mapError Failure.numeral
      if settings.maxAddress < n then
        .error (rejected token i (.addressOutOfRange n settings.machineSize (some instruction)))
      else .ok (Numeral.digitValue c, n)

/-! ### One step -/

/-- The module that is being filled. -/
def filling (r : Reading) : Module := r.current.getD {}

/-- The store once the current module has been placed into it. -/
def finished (r : Reading) : Store :=
  match r.current with
  | some m => r.store.append m
  | none   => r.store

/-- The first token of the pair that `token` completes. -/
def firstOfPair (r : Reading) (token : Token) : Token := r.state.pending.getD token

/-- The reading after a token that changes nothing but the state. -/
def consume (r : Reading) (pending : Option Token) : Reading :=
  { r with state := r.state.consumed pending }

/-- The reading after a token that completes an item of the current module. -/
def complete (r : Reading) (m : Module) : Reading :=
  { r with state := r.state.consumed none, current := some m }

/-- The reading after one more token. -/
def step (settings : Settings) (r : Reading) (token : Token) : Except Failure Reading :=
  match r.state.role with
  | .count => do
    let n ← number .invalidCount token r.store.count
    match r.state.part with
    | .definitions => .ok ⟨r.state.expecting n, some {}, r.finished⟩
    | _            => .ok { r with state := r.state.expecting n }
  | .definitionSymbol => .ok (r.consume (some token))
  | .definitionLocation => do
    let offset ← number .invalidLocation token r.store.count
    let symbol := r.firstOfPair token
    .ok (r.complete (r.filling.addDefinition
      (.fresh symbol.text (some offset) (some symbol.location))))
  | .use => .ok (r.complete (r.filling.addUse ⟨token.text, some token.location⟩))
  | .instructionType => do
    let _ ← classification token r.store.count
    .ok (r.consume (some token))
  | .instructionWord => do
    let kind ← classification (r.firstOfPair token) r.store.count
    let (opcode, address) ← opcodeAndAddress settings token r.store.count r.filling.length
    .ok (r.complete (r.filling.addInstruction
      (.fresh kind opcode address (some token.location))))

/-! ### Whole programs -/

/-- The reading after a list of tokens. -/
def run (settings : Settings) (r : Reading) (tokens : List Token) : Except Failure Reading :=
  tokens.foldlM (step settings) r

/-- Each token with the reading after it, up to the first failure. -/
def trace (settings : Settings) : Reading → List Token → List (Token × Except Failure Reading)
  | _, []      => []
  | r, t :: ts =>
    match r.step settings t with
    | .ok r'   => (t, .ok r') :: trace settings r' ts
    | .error e => [(t, .error e)]

/-- The store that a reading gives at the end of the input, after the token `last`. -/
def finish (r : Reading) (last : Option Token) : Except Failure Store :=
  if r.state.remaining = 0 then .ok r.finished
  else if Numeral.isWritable r.state.remaining then
    .error (.link ⟨.endOfInput r.state.role r.state.remaining, last.map Token.location,
      r.store.count⟩)
  else .error (.numeral .tooLarge)

/-! ### The events of a reading -/

/-- The event that tells of a placed module. -/
def placedEvent (m : Module) : Event := .modulePlaced m.index m.start m.length m.endLocation

/-- The events of placing the current module. -/
def placedEvents (r : Reading) : List Event :=
  match r.current with
  | some m => [placedEvent (r.store.place m)]
  | none   => []

/-- The events of a step that does not fail. -/
def stepEvents (r : Reading) (token : Token) : List Event :=
  match r.state.role, r.state.part with
  | .count, .definitions =>
    r.placedEvents ++
      [.sectionCounted r.finished.count (Numeral.ofDigits token.chars) .definitions]
  | .count, part => [.sectionCounted r.store.count (Numeral.ofDigits token.chars) part]
  | _, _ => []

/-- The events of reading a list of tokens, up to the first failure. -/
def runEvents (settings : Settings) : Reading → List Token → List Event
  | _, []      => []
  | r, t :: ts =>
    match r.step settings t with
    | .ok r'   => r.stepEvents t ++ runEvents settings r' ts
    | .error _ => []

/-- The events of the end of the input. -/
def finishEvents (r : Reading) : List Event :=
  if r.state.remaining = 0 then
    r.placedEvents ++ [.programRead r.finished.count r.finished.totalLength]
  else []

end Reading

namespace Store

/-- The modules that a list of tokens writes. -/
def parse (settings : Settings) (tokens : List Token) : Except Failure Store := do
  let r ← Reading.run settings {} tokens
  r.finish tokens.getLast?

/-- The events of reading a list of tokens and of its end. -/
def parseEvents (settings : Settings) (tokens : List Token) : List Event :=
  Reading.runEvents settings {} tokens ++
    match Reading.run settings {} tokens with
    | .ok r    => r.finishEvents
    | .error _ => []

/-- Reads a list of tokens. -/
def ofTokens (settings : Settings) (tokens : List Token) : Run Store :=
  ⟨parseEvents settings tokens, parse settings tokens⟩

end Store

end Linkage
