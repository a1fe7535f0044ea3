/-!
# Similarity — the common blocks of two texts

A common block of two texts is a stretch of characters that stands in both.  `longestBlock` finds
the longest one; among several, the one that starts first in the first text, and then the one that
starts first in the second.  `matched` adds up the sizes of the longest block and, recursively, of
the blocks on its left and on its right.

The first text comes as spots: characters together with the places of the second text where the same
character stands.  A character may be left without places; it then begins no block, and only widens
one that was found without it, first to the left and then to the right.

The search goes through the spots and keeps a row: the places of the present spot, each with the
size of the longest block that ends there.
-/

namespace Linkage.Similarity

/-- A character of the first text, with places of it in the second text in ascending order. -/
structure Spot where
  char : Char
  places : List Nat
  deriving DecidableEq, Repr

/-- The places of a character in a text that starts at place `j`. -/
def placesFrom (c : Char) (j : Nat) : List Char → List Nat
  | []      => []
  | y :: ys => if y = c then j :: placesFrom c (j + 1) ys else placesFrom c (j + 1) ys

namespace Spot

/-- The spot of a character; a popular character is left without places. -/
def of (popular : Char → Bool) (b : List Char) (c : Char) : Spot :=
  ⟨c, if popular c then [] else placesFrom c 0 b⟩

/-- The spot with those of its places that lie in the first `j` characters. -/
def before (j : Nat) (s : Spot) : Spot := { s with places := s.places.filter (· < j) }

/-- The spot with those of its places that lie behind the first `j` characters, counted from there. -/
def behind (j : Nat) (s : Spot) : Spot :=
  { s with places := (s.places.filter (j ≤ ·)).map (· - j) }

end Spot

/-- A block: where it starts in either text, and its size. -/
structure Block where
  left : Nat
  right : Nat
  size : Nat
  deriving DecidableEq, Repr

/-- The length of the longest common beginning. -/
def commonStart : List Spot → List Char → Nat
  | s :: ss, y :: ys => if s.char = y then commonStart ss ys + 1 else 0
  | _,       _       => 0

/-- Places with the sizes of the blocks that end there. -/
abbrev Row := List (Nat × Nat)

/-- The row of a spot with the given places, from the row of the spot before it. -/
def nextRow : Row → List Nat → Row
  | _,              []      => []
  | [],             j :: js => (j, 1) :: nextRow [] js
  | (p, k) :: rest, j :: js =>
    if p + 1 < j then nextRow rest (j :: js)
    else if p + 1 = j then (j, k + 1) :: nextRow rest js
    else (j, 1) :: nextRow ((p, k) :: rest) js
termination_by row places => row.length + places.length

/-- The better of a block and the blocks of a row for position `i`. -/
def improve (i : Nat) (best : Block) : Row → Block
  | []          => best
  | (j, k) :: r => improve i (if best.size < k then ⟨i + 1 - k, j + 1 - k, k⟩ else best) r

/-- The better of a block and the blocks that end in a rest of the first text; the rest starts at
position `i`, and `row` belongs to the spot before it. -/
def search (i : Nat) (row : Row) (best : Block) : List Spot → Block
  | []      => best
  | s :: ss =>
    let row' := nextRow row s.places
    search (i + 1) row' (improve i best row') ss

/-- The block with the equal characters before it. -/
def Block.widenLeft (a : List Spot) (b : List Char) (block : Block) : Block :=
  let n := commonStart (a.take block.left).reverse (b.take block.right).reverse
  ⟨block.left - n, block.right - n, block.size + n⟩

/-- The block with the equal characters behind it. -/
def Block.widenRight (a : List Spot) (b : List Char) (block : Block) : Block :=
  { block with
    size := block.size +
      commonStart (a.drop (block.left + block.size)) (b.drop (block.right + block.size)) }

/-- The longest common block. -/
def longestBlock (a : List Spot) (b : List Char) : Block :=
  ((search 0 [] ⟨0, 0, 0⟩ a).widenLeft a b).widenRight a b

/-! ### A block lies within the first text -/

theorem commonStart_le_left (a : List Spot) (b : List Char) : commonStart a b ≤ a.length := by
  fun_induction commonStart a b with
  | case1 _ _ _ ih => simpa using ih
  | case2 => simp
  | case3 => simp

/-- The block ends at or before position `n` of the first text. -/
def Block.Within (n : Nat) (block : Block) : Prop := block.left + block.size ≤ n

theorem improve_within {i n : Nat} {best : Block} {row : Row} (hi : i < n)
    (hrow : ∀ e ∈ row, e.2 ≤ i + 1) (hbest : best.Within n) : (improve i best row).Within n := by
  induction row generalizing best with
  | nil => exact hbest
  | cons e r ih =>
    have hk : e.2 ≤ i + 1 := hrow e (by simp)
    refine ih (fun e' he' => hrow e' (by simp [he'])) ?_
    split
    · simp only [Block.Within]; omega
    · exact hbest

/-- The blocks of a row are by at most one character longer than those of the row before it. -/
theorem nextRow_le {i : Nat} (row : Row) (places : List Nat) (hrow : ∀ e ∈ row, e.2 ≤ i) :
    ∀ e ∈ nextRow row places, e.2 ≤ i + 1 := by
  fun_induction nextRow row places with
  | case1 => simp
  | case2 j js ih =>
    intro e he
    rcases List.mem_cons.1 he with rfl | he
    · simp
    · exact ih (by simp) e he
  | case3 p k rest j js _ ih => exact ih fun e he => hrow e (by simp [he])
  | case4 p k rest js _ ih =>
    intro e he
    rcases List.mem_cons.1 he with rfl | he
    · have : k ≤ i := hrow (p, k) (by simp)
      simp only; omega
    · exact ih (fun e he => hrow e (by simp [he])) e he
  | case5 p k rest j js _ _ ih =>
    intro e he
    rcases List.mem_cons.1 he with rfl | he
    · simp
    · exact ih hrow e he

theorem search_within (a : List Spot) {i : Nat} {row : Row} {best : Block}
    (hrow : ∀ e ∈ row, e.2 ≤ i) (hbest : best.Within (i + a.length)) :
    (search i row best a).Within (i + a.length) := by
  induction a generalizing i row best with
  | nil => exact hbest
  | cons s ss ih =>
    have h := nextRow_le row s.places hrow
    have hn : i + (s :: ss).length = i + 1 + ss.length := by rw [List.length_cons]; omega
    rw [hn] at hbest ⊢
    exact ih h (improve_within (by omega) h hbest)

theorem widenLeft_within {a : List Spot} {b : List Char} {n : Nat} {block : Block}
    (h : block.Within n) : (block.widenLeft a b).Within n := by
  have hle := commonStart_le_left (a.take block.left).reverse (b.take block.right).reverse
  have : (a.take block.left).reverse.length ≤ block.left := by
    rw [List.length_reverse, List.length_take]; omega
  simp only [Block.Within, Block.widenLeft] at h ⊢
  omega

theorem widenRight_within {a : List Spot} {b : List Char} {block : Block}
    (h : block.Within a.length) : (block.widenRight a b).Within a.length := by
  have hle := commonStart_le_left (a.drop (block.left + block.size))
    (b.drop (block.right + block.size))
  simp only [List.length_drop] at hle
  simp only [Block.Within, Block.widenRight] at h ⊢
  omega

theorem longestBlock_within (a : List Spot) (b : List Char) :
    (longestBlock a b).Within a.length := by
  have h : (search 0 [] ⟨0, 0, 0⟩ a).Within (0 + a.length) :=
    search_within a (by simp) (by simp [Block.Within])
  rw [Nat.zero_add] at h
  exact widenRight_within (widenLeft_within h)

/-! ### All blocks -/

/-- The number of characters in the common blocks. -/
def matched (a : List Spot) (b : List Char) : Nat :=
  match longestBlock a b, longestBlock_within a b with
  | ⟨i, j, size⟩, _within =>
    if 0 < size then
      matched ((a.take i).map (·.before j)) (b.take j) + size +
        matched ((a.drop (i + size)).map (·.behind (j + size))) (b.drop (j + size))
    else 0
termination_by a.length
decreasing_by
  all_goals
    simp only [Block.Within] at _within
    simp only [List.length_map, List.length_take, List.length_drop]
    omega

end Linkage.Similarity
