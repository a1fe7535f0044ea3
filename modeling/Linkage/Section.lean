/-!
# Sections — the three parts of a module, and the role of a token in them

A module is written as three sections, each a count followed by that many items.  An item of the
definitions and of the instructions is a pair of tokens, an item of the uses is one token.
-/

namespace Linkage

/-- A part of a module, in the order the parts are written. -/
inductive Section where
  | definitions
  | uses
  | instructions
  deriving DecidableEq, Repr

namespace Section

/-- The section that follows; the definitions of the next module follow the instructions. -/
def next : Section → Section
  | .definitions  => .uses
  | .uses         => .instructions
  | .instructions => .definitions

/-- How many tokens an item of the section has. -/
def tokensPerItem : Section → Nat
  | .definitions  => 2
  | .uses         => 1
  | .instructions => 2

/-- The section's name in messages. -/
def name : Section → String
  | .definitions  => "definitions"
  | .uses         => "uses"
  | .instructions => "instructions"

theorem tokensPerItem_pos (s : Section) : 0 < s.tokensPerItem := by
  cases s <;> decide

end Section

/-- What a token means at its place in the stream. -/
inductive Role where
  | count
  | definitionSymbol
  | definitionLocation
  | use
  | instructionType
  | instructionWord
  deriving DecidableEq, Repr

/-- The role's name in messages. -/
def Role.name : Role → String
  | .count              => "count"
  | .definitionSymbol   => "definition symbol"
  | .definitionLocation => "definition location"
  | .use                => "use"
  | .instructionType    => "instruction type"
  | .instructionWord    => "instruction word"

end Linkage
