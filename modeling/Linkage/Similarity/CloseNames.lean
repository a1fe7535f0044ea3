import Linkage.Similarity.Block

/-!
# Similarity — the names that are close to a name

The similarity of a name to another one is twice the number of characters in their common blocks,
divided by the sum of their lengths.  A name is close when its similarity is at least three
fifths.  Before the blocks are looked for, two upper bounds of their number are tried: the shorter
length, and the number of characters that the names have in common in any order.

In a long name a character is popular when more than one character in a hundred is that one.
-/

namespace Linkage.Similarity

/-- The number of characters that two texts have in common, in any order. -/
def common : List Char → List Char → Nat
  | [],      _ => 0
  | c :: cs, b => if b.contains c then common cs (b.erase c) + 1 else common cs b

/-- In a name of at least 200 characters, a character that stands at more than a hundredth of the
places, and at more than one place besides. -/
def isPopular (b : List Char) (c : Char) : Bool :=
  200 ≤ b.length && b.length / 100 + 1 < b.count c

/-- A name with the number of its characters in common blocks and the sum of both lengths. -/
structure Candidate where
  name : String
  matched : Nat
  total : Nat
  deriving DecidableEq, Repr

/-- `m` matched characters of `total` are a similarity of at least three fifths. -/
def reaches (m total : Nat) : Bool := 3 * total ≤ 10 * m

/-- The candidate that a name is for the name `b`, when it is close to it. -/
def candidate? (b name : String) : Option Candidate :=
  let x := name.toList
  let y := b.toList
  let total := x.length + y.length
  if reaches (min x.length y.length) total && reaches (common x y) total then
    let m := matched (x.map (.of (isPopular y) y)) y
    if reaches m total then some ⟨name, m, total⟩ else none
  else none

/-- The first candidate is more similar than the second, or as similar and not before it in the
order of names. -/
def Candidate.ranksAbove (x y : Candidate) : Bool :=
  y.matched * x.total < x.matched * y.total ||
    (x.matched * y.total == y.matched * x.total && !(x.name < y.name : Bool))

/-- The candidates among a list of names, best first. -/
def ranking (names : List String) (b : String) : List Candidate :=
  (names.filterMap (candidate? b)).mergeSort Candidate.ranksAbove

/-- The best three of the names that are close to `b`, best first. -/
def closeNames (names : List String) (b : String) : List String :=
  ((ranking names b).take 3).map Candidate.name

end Linkage.Similarity
