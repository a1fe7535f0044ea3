import Linkage.Failure

/-!
# Indexing — positions that may count from the end

A position of a list is an integer.  Zero is the first element; a negative position counts from the
end, where `-1` is the last element.  Any other position is outside the list.  A position that does
not fit a signed word of 64 bits is outside every list, and a fault of its own.
-/

namespace Linkage

/-- The index that a signed position means in a list of `n` elements. -/
def signedIndex? (n : Nat) (position : Int) : Option Nat :=
  let i := if position < 0 then position + n else position
  if 0 ≤ i ∧ i < n then some i.toNat else none

/-- The element at a signed position. -/
def elementAt? {α : Type} (xs : List α) (position : Int) : Option α :=
  (signedIndex? xs.length position).bind (xs[·]?)

/-- The list with the element at a signed position replaced; a position outside changes nothing. -/
def replaceAt {α : Type} (xs : List α) (position : Int) (x : α) : List α :=
  match signedIndex? xs.length position with
  | some i => xs.set i x
  | none   => xs

/-- A position that a list can have: it fits a signed word of 64 bits. -/
def isIndexSized (position : Int) : Bool :=
  -9223372036854775808 ≤ position && position ≤ 9223372036854775807

/-- The element at a signed position, or the fault of a position that is outside. -/
def elementAt {α : Type} (xs : List α) (position : Int) : Except Failure α :=
  match elementAt? xs position with
  | some x => .ok x
  | none   =>
    .error (.fault (if isIndexSized position then .noSuchPosition else .positionTooLarge))

/-- A position that is not negative is an ordinary index. -/
theorem elementAt?_natCast {α : Type} (xs : List α) (i : Nat) : elementAt? xs i = xs[i]? := by
  unfold elementAt? signedIndex?
  by_cases h : i < xs.length
  · have h₁ : ¬ (i : Int) < 0 := by omega
    have h₂ : (0 : Int) ≤ i ∧ (i : Int) < xs.length := by omega
    simp [h₁, h₂]
  · have h₁ : ¬ (i : Int) < 0 := by omega
    simp [h₁, h]

end Linkage
