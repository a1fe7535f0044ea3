import Linkage.Section
import Linkage.Token

/-!
# Reading — the state that decides the role of the next token

The state of a reader is the section it is in, the number of tokens it still expects there, and the
first token of a pair of which the second is due.  No token expected means that the section's count
is due.  A count of zero moves on to the next section at once, as does the last token of a section.

The number of expected tokens is an integer of any sign; its parity tells the two halves of a pair
apart.
-/

namespace Linkage.Reading

/-- What a reader expects. -/
structure State where
  /-- The section that is being read. -/
  part : Section := .definitions
  /-- The number of tokens still expected in the section; zero when its count is due. -/
  remaining : Int := 0
  /-- The first token of a pair whose second token is due. -/
  pending : Option Token := none
  deriving DecidableEq, Repr

namespace State

/-- The role of the next token. -/
def role (s : State) : Role :=
  if s.remaining = 0 then .count
  else match s.part with
    | .uses         => .use
    | .definitions  => if s.remaining % 2 = 0 then .definitionSymbol else .definitionLocation
    | .instructions => if s.remaining % 2 = 0 then .instructionType else .instructionWord

/-- The state at the beginning of a section. -/
def beginning (part : Section) : State := ⟨part, 0, none⟩

/-- The state after the count of the section. -/
def expecting (s : State) (count : Int) : State :=
  if count = 0 then beginning s.part.next
  else ⟨s.part, count * s.part.tokensPerItem, none⟩

/-- The state after a token of an item; `pending` is the token when it is the first of a pair. -/
def consumed (s : State) (pending : Option Token) : State :=
  if s.remaining - 1 = 0 then beginning s.part.next
  else ⟨s.part, s.remaining - 1, pending⟩

theorem role_eq_count {s : State} : s.role = .count ↔ s.remaining = 0 := by
  unfold role
  split
  · simp_all
  · split <;> (try split) <;> simp_all

end State

end Linkage.Reading
