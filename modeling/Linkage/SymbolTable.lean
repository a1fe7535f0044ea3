import Linkage.Event

/-!
# Symbol table — the symbols of a program and their addresses

A table lists its entries in the order they were accepted, and for each name the entry that it
resolves to.  Names stand in the order of their first definition.  A repeated name is refused under
`error`, and is a fault where the policy is none of the three; otherwise its entry is accepted, and
the name goes on resolving to the first entry or now resolves to the last one, as the policy
says.  A frozen table accepts nothing.
-/

namespace Linkage

/-- An accepted definition. -/
structure Entry where
  name : String
  /-- The address in the program. -/
  address : Int
  /-- The module that defines the symbol. -/
  moduleIndex : Int
  deriving DecidableEq, Repr

/-- The entry as listings and logs show it. -/
def Entry.text (e : Entry) : String := s!"{e.name}={e.address}"

/-- The symbols of a program. -/
structure SymbolTable where
  policy : PolicySetting := .known .error
  /-- The accepted definitions in order. -/
  entries : List Entry := []
  /-- The entry that each name resolves to, names in the order of their first definition. -/
  resolved : List Entry := []
  frozen : Bool := false
  deriving DecidableEq, Repr

namespace SymbolTable

/-- The table without entries. -/
def empty (policy : PolicySetting) : SymbolTable := { policy }

/-- The number of accepted definitions. -/
def count (t : SymbolTable) : Nat := t.entries.length

/-- The entry that a name resolves to. -/
def lookup (t : SymbolTable) (name : String) : Option Entry :=
  t.resolved.find? (·.name == name)

/-- The name has an entry. -/
def contains (t : SymbolTable) (name : String) : Bool := (t.lookup name).isSome

/-- The names in the order of their first definition. -/
def names (t : SymbolTable) : List String := t.resolved.map Entry.name

/-- The address that each name resolves to, names in the order of their first definition. -/
def addresses (t : SymbolTable) : List (String × Int) :=
  t.resolved.map fun e => (e.name, e.address)

/-- Numbers of entries by name, with one more entry of the given name; a new name comes last. -/
def counted (counts : List (String × Nat)) (name : String) : List (String × Nat) :=
  if counts.any fun c => c.1 == name then
    counts.map fun c => if c.1 == name then (c.1, c.2 + 1) else c
  else counts ++ [(name, 1)]

/-- The names with more than one entry, in the order of their first entry. -/
def duplicates (t : SymbolTable) : List String :=
  (((t.entries.map Entry.name).foldl counted []).filter fun c => 1 < c.2).map Prod.fst

/-- The table that accepts no more definitions. -/
def freeze (t : SymbolTable) : SymbolTable := { t with frozen := true }

/-- What the names resolve to after an entry has been accepted. -/
def resolvedWith (t : SymbolTable) (e : Entry) : List Entry :=
  if t.contains e.name then
    match t.policy with
    | .known .last => t.resolved.map fun old => if old.name == e.name then e else old
    | _            => t.resolved
  else t.resolved ++ [e]

/-- The table after a definition; `location` is where its name was read. -/
def define (t : SymbolTable) (e : Entry) (location : Option Location) :
    Except Failure SymbolTable :=
  if t.frozen then .error (.misuse (.frozenTable e.name))
  else
    match t.lookup e.name, t.policy with
    | some old, .known .error =>
      .error (.link ⟨.duplicate e.name old.moduleIndex, location, e.moduleIndex⟩)
    | some _, .unknown value => .error (.fault (.noPolicyWord value))
    | _, _ => .ok { t with entries := t.entries ++ [e], resolved := t.resolvedWith e }

/-- The events of a definition that is accepted. -/
def defineEvents (t : SymbolTable) (e : Entry) : List Event :=
  let redefined := match t.lookup e.name, t.policy with
    | some old, .known p => [.symbolRedefined e.name old.moduleIndex e.moduleIndex p]
    | _,        _        => []
  redefined ++ [.symbolDefined e.name e.address e.moduleIndex]

end SymbolTable

end Linkage
