import Mathlib.Algebra.Order.Group.Multiset
import Mathlib.Data.Multiset.UnionInter
import Linkage.Similarity.CloseNames

/-!
# Similarity — common blocks and common characters

The characters in the common blocks of two texts are characters that the texts have in common in any
order, so there are at most as many of them (`matched_le_common`); and the common characters are at
most as many as either text has (`common_le_min`).

The argument needs of a block only that it stands in both texts (`Block.Common`), not that it is
the longest.  The search keeps that property from spot to spot: a row has stretches that end where
the spots that have been read end (`EndsAt`, `endsAt_nextRow`).  On either side of a block the rest
of both texts is again a pair of texts, with spots whose places lie there (`Spot.Valid.before`,
`Spot.Valid.behind`).

Spots without places begin no block, and the texts are matched only as far as they begin alike
(`longestBlock_of_places_eq_nil`).
-/

namespace Linkage.Similarity

variable {a ss : List Spot} {s : Spot} {b x y pre : List Char} {c : Char} {block best : Block}
  {row : Row} {places : List Nat} {i j n : Nat}

/-! ### Places -/

/-- The places of a spot are places of its character. -/
def Spot.Valid (y : List Char) (s : Spot) : Prop := ∀ j ∈ s.places, y[j]? = some s.char

theorem getElem?_of_mem_placesFrom (h : j ∈ placesFrom c i y) : i ≤ j ∧ y[j - i]? = some c := by
  fun_induction placesFrom c i y with
  | case1 => exact absurd h List.not_mem_nil
  | case2 i zs ih =>
    rcases List.mem_cons.1 h with rfl | h
    · rw [Nat.sub_self]
      exact ⟨Nat.le_refl j, List.getElem?_cons_zero⟩
    · obtain ⟨hle, hget⟩ := ih h
      have hsub : j - i = (j - (i + 1)) + 1 := by omega
      rw [hsub, List.getElem?_cons_succ]
      exact ⟨by omega, hget⟩
  | case3 i z zs hz ih =>
    obtain ⟨hle, hget⟩ := ih h
    have hsub : j - i = (j - (i + 1)) + 1 := by omega
    rw [hsub, List.getElem?_cons_succ]
    exact ⟨by omega, hget⟩

theorem placesFrom_eq_nil (h : c ∉ y) (i : Nat) : placesFrom c i y = [] :=
  List.eq_nil_iff_forall_not_mem.2 fun _ hj =>
    h (List.mem_of_getElem? (getElem?_of_mem_placesFrom hj).2)

theorem Spot.valid_of (popular : Char → Bool) (y : List Char) (c : Char) :
    (Spot.of popular y c).Valid y := by
  intro j hj
  unfold Spot.of at hj
  split at hj
  · exact absurd hj List.not_mem_nil
  · exact (getElem?_of_mem_placesFrom hj).2

theorem Spot.Valid.before (h : s.Valid y) (n : Nat) : (s.before n).Valid (y.take n) := by
  intro j hj
  obtain ⟨hj, hlt⟩ := List.mem_filter.1 hj
  rw [List.getElem?_take_of_lt (of_decide_eq_true hlt)]
  exact h j hj

theorem Spot.Valid.behind (h : s.Valid y) (n : Nat) : (s.behind n).Valid (y.drop n) := by
  intro j hj
  obtain ⟨p, hp, rfl⟩ := List.mem_map.1 hj
  obtain ⟨hp, hle⟩ := List.mem_filter.1 hp
  rw [List.getElem?_drop, Nat.add_sub_cancel' (of_decide_eq_true hle)]
  exact h p hp

/-! ### Blocks -/

/-- The block is a stretch of characters that stands in both texts. -/
def Block.Common (x y : List Char) (block : Block) : Prop :=
  ∃ w x₁ x₂ y₁ y₂, x = x₁ ++ w ++ x₂ ∧ y = y₁ ++ w ++ y₂ ∧
    x₁.length = block.left ∧ y₁.length = block.right ∧ w.length = block.size

/-- A place with a size: a stretch of that size ends at that place, and also where `pre` ends. -/
def EndsAt (pre y : List Char) (e : Nat × Nat) : Prop :=
  ∃ w x₁ y₁ y₂, pre = x₁ ++ w ∧ y = y₁ ++ w ++ y₂ ∧ w.length = e.2 ∧ (y₁ ++ w).length = e.1 + 1

/-- A stretch of one character. -/
theorem endsAt_one (h : y[j]? = some c) (pre : List Char) : EndsAt (pre ++ [c]) y (j, 1) := by
  obtain ⟨hj, rfl⟩ := List.getElem?_eq_some_iff.1 h
  refine ⟨[y[j]], pre, y.take j, y.drop (j + 1), rfl, ?_, rfl, ?_⟩
  · rw [List.take_concat_get', List.take_append_drop]
  · rw [List.length_append, List.length_take, Nat.min_eq_left (Nat.le_of_lt hj)]
    rfl

/-- A stretch is longer by a character that stands behind it in both texts. -/
theorem EndsAt.succ {p k : Nat} (h : EndsAt pre y (p, k)) (hp : y[p + 1]? = some c) :
    EndsAt (pre ++ [c]) y (p + 1, k + 1) := by
  obtain ⟨w, x₁, y₁, y₂, rfl, rfl, hw, hlen⟩ := h
  rw [← hlen, List.getElem?_append_right (Nat.le_refl _), Nat.sub_self] at hp
  cases y₂ with
  | nil => cases hp
  | cons d y₂ =>
    obtain rfl : d = c := Option.some.inj hp
    refine ⟨w ++ [d], x₁, y₁, y₂, List.append_assoc .., ?_, ?_, ?_⟩
    · simp
    · rw [List.length_append, hw]
      rfl
    · rw [← List.append_assoc, List.length_append, hlen]
      rfl

/-- The row of a spot has the stretches that end at the spot. -/
theorem endsAt_nextRow (hrow : ∀ e ∈ row, EndsAt pre y e) (hplaces : ∀ j ∈ places, y[j]? = some c) :
    ∀ e ∈ nextRow row places, EndsAt (pre ++ [c]) y e := by
  fun_induction nextRow row places with
  | case1 => exact fun _ he => absurd he List.not_mem_nil
  | case2 j js ih =>
    obtain ⟨hj, hjs⟩ := List.forall_mem_cons.1 hplaces
    exact List.forall_mem_cons.2 ⟨endsAt_one hj pre, ih hrow hjs⟩
  | case3 p k rest j js _ ih => exact ih (List.forall_mem_cons.1 hrow).2 hplaces
  | case4 p k rest js _ ih =>
    obtain ⟨hp, hrest⟩ := List.forall_mem_cons.1 hrow
    obtain ⟨hj, hjs⟩ := List.forall_mem_cons.1 hplaces
    exact List.forall_mem_cons.2 ⟨hp.succ hj, ih hrest hjs⟩
  | case5 p k rest j js _ _ ih =>
    obtain ⟨hj, hjs⟩ := List.forall_mem_cons.1 hplaces
    exact List.forall_mem_cons.2 ⟨endsAt_one hj pre, ih hrow hjs⟩

/-- The better of a block and the stretches of a row stands in both texts when they do. -/
theorem improve_common (hrow : ∀ e ∈ row, EndsAt pre y e) (hi : pre.length = i + 1)
    (hx : x = pre ++ b) (hbest : best.Common x y) : (improve i best row).Common x y := by
  induction row generalizing best with
  | nil => exact hbest
  | cons e row ih =>
    obtain ⟨he, hrow⟩ := List.forall_mem_cons.1 hrow
    refine ih hrow ?_
    split
    · obtain ⟨w, x₁, y₁, y₂, hpre, hy, hw, hlen⟩ := he
      refine ⟨w, x₁, b, y₁, y₂, by rw [hx, hpre], hy, ?_, ?_, hw⟩
      · rw [hpre, List.length_append] at hi
        show x₁.length = i + 1 - e.2
        omega
      · rw [List.length_append] at hlen
        show y₁.length = e.1 + 1 - e.2
        omega
    · exact hbest

/-- The search goes through the spots behind `pre`. -/
theorem search_common (hrow : ∀ e ∈ row, EndsAt pre y e) (hvalid : ∀ s ∈ ss, s.Valid y)
    (hbest : best.Common (pre ++ ss.map Spot.char) y) :
    (search pre.length row best ss).Common (pre ++ ss.map Spot.char) y := by
  induction ss generalizing pre row best with
  | nil => exact hbest
  | cons s ss ih =>
    obtain ⟨hs, hss⟩ := List.forall_mem_cons.1 hvalid
    have hrow' := endsAt_nextRow hrow hs
    have hx : pre ++ (s :: ss).map Spot.char = pre ++ [s.char] ++ ss.map Spot.char := by simp
    have hlen : (pre ++ [s.char]).length = pre.length + 1 := List.length_append
    rw [hx] at hbest ⊢
    rw [search, ← hlen]
    exact ih hrow' hss (improve_common hrow' hlen rfl hbest)

/-- What two texts begin with in common. -/
theorem exists_commonStart (a : List Spot) (y : List Char) :
    ∃ w x₂ y₂, a.map Spot.char = w ++ x₂ ∧ y = w ++ y₂ ∧ w.length = commonStart a y := by
  fun_induction commonStart a y with
  | case1 s ss ys ih =>
    obtain ⟨w, x₂, y₂, hx, rfl, hw⟩ := ih
    refine ⟨s.char :: w, x₂, y₂, ?_, rfl, congrArg (· + 1) hw⟩
    rw [List.map_cons, hx, List.cons_append]
  | case2 s ss z zs _ => exact ⟨[], _, _, rfl, rfl, rfl⟩
  | case3 => exact ⟨[], _, _, rfl, rfl, rfl⟩

/-- What two texts end with in common. -/
theorem exists_commonEnd (a : List Spot) (y : List Char) :
    ∃ w x₁ y₁, a.map Spot.char = x₁ ++ w ∧ y = y₁ ++ w ∧
      w.length = commonStart a.reverse y.reverse := by
  obtain ⟨v, x₂, y₂, hx, hy, hv⟩ := exists_commonStart a.reverse y.reverse
  refine ⟨v.reverse, x₂.reverse, y₂.reverse, ?_, ?_, List.length_reverse.trans hv⟩
  · rw [← List.reverse_append, ← hx, List.map_reverse, List.reverse_reverse]
  · rw [← List.reverse_append, ← hy, List.reverse_reverse]

theorem widenLeft_common (h : block.Common (a.map Spot.char) y) :
    (block.widenLeft a y).Common (a.map Spot.char) y := by
  obtain ⟨w, x₁, x₂, y₁, y₂, hx, hy, hleft, hright, hsize⟩ := h
  obtain ⟨v, x₃, y₃, hx₃, hy₃, hv⟩ :=
    exists_commonEnd (a.take block.left) (y.take block.right)
  have hx₁ : x₁ = x₃ ++ v := by
    rw [List.map_take, hx, ← hleft, List.append_assoc, List.take_left] at hx₃
    exact hx₃
  have hy₁ : y₁ = y₃ ++ v := by
    rw [hy, ← hright, List.append_assoc, List.take_left] at hy₃
    exact hy₃
  refine ⟨v ++ w, x₃, x₂, y₃, y₂, ?_, ?_, ?_, ?_, ?_⟩
  · rw [hx, hx₁]
    simp
  · rw [hy, hy₁]
    simp
  · show x₃.length = block.left - commonStart _ _
    rw [← hv, ← hleft, hx₁, List.length_append, Nat.add_sub_cancel]
  · show y₃.length = block.right - commonStart _ _
    rw [← hv, ← hright, hy₁, List.length_append, Nat.add_sub_cancel]
  · show (v ++ w).length = block.size + commonStart _ _
    rw [← hv, ← hsize, List.length_append, Nat.add_comm]

theorem widenRight_common (h : block.Common (a.map Spot.char) y) :
    (block.widenRight a y).Common (a.map Spot.char) y := by
  obtain ⟨w, x₁, x₂, y₁, y₂, hx, hy, hleft, hright, hsize⟩ := h
  obtain ⟨v, x₃, y₃, hx₃, hy₃, hv⟩ :=
    exists_commonStart (a.drop (block.left + block.size)) (y.drop (block.right + block.size))
  have hx₂ : x₂ = v ++ x₃ := by
    rw [List.map_drop, hx, ← hleft, ← hsize, ← List.length_append, List.drop_left] at hx₃
    exact hx₃
  have hy₂ : y₂ = v ++ y₃ := by
    rw [hy, ← hright, ← hsize, ← List.length_append, List.drop_left] at hy₃
    exact hy₃
  refine ⟨w ++ v, x₁, x₃, y₁, y₃, ?_, ?_, hleft, hright, ?_⟩
  · rw [hx, hx₂]
    simp
  · rw [hy, hy₂]
    simp
  · show (w ++ v).length = block.size + commonStart _ _
    rw [← hv, ← hsize, List.length_append]

/-- **The longest block stands in both texts.** -/
theorem longestBlock_common (hvalid : ∀ s ∈ a, s.Valid y) :
    (longestBlock a y).Common (a.map Spot.char) y := by
  have hzero : Block.Common (a.map Spot.char) y ⟨0, 0, 0⟩ :=
    ⟨[], [], a.map Spot.char, [], y, rfl, rfl, rfl, rfl, rfl⟩
  have hempty : ∀ e ∈ ([] : Row), EndsAt [] y e := fun _ he => absurd he List.not_mem_nil
  have hsearch : (search 0 [] ⟨0, 0, 0⟩ a).Common (a.map Spot.char) y :=
    search_common hempty hvalid hzero
  exact widenRight_common (widenLeft_common hsearch)

/-! ### Common characters -/

/-- The common characters are the multiset intersection of the characters. -/
theorem common_eq_card (x y : List Char) :
    common x y = Multiset.card ((x : Multiset Char) ∩ (y : Multiset Char)) := by
  fun_induction common x y with
  | case1 y => rw [Multiset.coe_nil, Multiset.zero_inter, Multiset.card_zero]
  | case2 c cs y hc ih =>
    rw [← Multiset.cons_coe, Multiset.cons_inter_of_pos _ (List.contains_iff_mem.1 hc),
      Multiset.card_cons, Multiset.coe_erase, ih]
  | case3 c cs y hc ih =>
    have hnot : c ∉ (y : Multiset Char) := fun h => hc (List.contains_iff_mem.2 h)
    rw [← Multiset.cons_coe, Multiset.cons_inter_of_neg _ hnot, ih]

/-- No more characters are common than either text has. -/
theorem common_le_min (x y : List Char) : common x y ≤ min x.length y.length := by
  rw [common_eq_card]
  exact Nat.le_min.2 ⟨Multiset.card_le_card Multiset.inter_le_left,
    Multiset.card_le_card Multiset.inter_le_right⟩

/-- On either side of a block, and in it, characters are common to the whole texts. -/
theorem Block.Common.common_le (h : block.Common x y) :
    common (x.take block.left) (y.take block.right) + block.size +
        common (x.drop (block.left + block.size)) (y.drop (block.right + block.size)) ≤
      common x y := by
  obtain ⟨w, x₁, x₂, y₁, y₂, rfl, rfl, hleft, hright, hsize⟩ := h
  rw [← hleft, ← hright, ← hsize, ← List.length_append, ← List.length_append, List.drop_left,
    List.drop_left, List.append_assoc, List.take_left, List.append_assoc, List.take_left]
  simp only [common_eq_card, ← Multiset.coe_add, ← Multiset.coe_card, ← Multiset.card_add]
  refine Multiset.card_le_card (Multiset.le_inter ?_ ?_)
  · rw [← Multiset.add_assoc]
    exact add_le_add (add_le_add Multiset.inter_le_left le_rfl) Multiset.inter_le_left
  · rw [← Multiset.add_assoc]
    exact add_le_add (add_le_add Multiset.inter_le_right le_rfl) Multiset.inter_le_right

theorem matched_eq (a : List Spot) (y : List Char) :
    matched a y =
      if 0 < (longestBlock a y).size then
        matched ((a.take (longestBlock a y).left).map (·.before (longestBlock a y).right))
            (y.take (longestBlock a y).right) + (longestBlock a y).size +
          matched ((a.drop ((longestBlock a y).left + (longestBlock a y).size)).map
              (·.behind ((longestBlock a y).right + (longestBlock a y).size)))
            (y.drop ((longestBlock a y).right + (longestBlock a y).size))
      else 0 := by
  rw [matched]

/-! ### Spots without places -/

/-- Without places the search finds nothing. -/
theorem search_of_places_eq_nil (h : ∀ s ∈ ss, s.places = []) (i : Nat) (best : Block) :
    search i [] best ss = best := by
  induction ss generalizing i with
  | nil => rfl
  | cons s ss ih =>
    obtain ⟨hs, hss⟩ := List.forall_mem_cons.1 h
    have hrow : nextRow [] s.places = [] := by rw [hs, nextRow]
    rw [search, hrow]
    exact ih hss (i + 1)

/-- Without places the longest block is what the texts begin with in common. -/
theorem longestBlock_of_places_eq_nil (h : ∀ s ∈ a, s.places = []) (y : List Char) :
    longestBlock a y = ⟨0, 0, commonStart a y⟩ := by
  have hleft : Block.widenLeft a y ⟨0, 0, 0⟩ = ⟨0, 0, 0⟩ := rfl
  rw [longestBlock, search_of_places_eq_nil h, hleft, Block.widenRight]
  simp

/-- Without places nothing is matched in texts that begin differently. -/
theorem matched_of_places_eq_nil (h : ∀ s ∈ a, s.places = []) (hstart : commonStart a y = 0) :
    matched a y = 0 := by
  rw [matched_eq, longestBlock_of_places_eq_nil h, hstart]
  rfl

/-! ### Common blocks and common characters -/

/-- **The common blocks have no more characters than the texts have in common.** -/
theorem matched_le_common (hvalid : ∀ s ∈ a, s.Valid y) :
    matched a y ≤ common (a.map Spot.char) y := by
  -- by induction on the length of the first text, of which either side of a block is shorter
  induction hlen : a.length using Nat.strongRecOn generalizing a y with
  | ind len ih =>
    subst hlen
    have hside {f : Spot → Spot} {ss : List Spot} {z : List Char} (hlt : ss.length < a.length)
        (hchar : Spot.char ∘ f = Spot.char) (hss : ∀ s ∈ ss, (f s).Valid z) :
        matched (ss.map f) z ≤ common (ss.map Spot.char) z := by
      have hle := ih (ss.map f).length (by rwa [List.length_map]) (List.forall_mem_map.2 hss) rfl
      rwa [List.map_map, hchar] at hle
    have hcommon := longestBlock_common hvalid
    have hwithin := longestBlock_within a y
    rw [matched_eq]
    generalize longestBlock a y = block at hcommon hwithin ⊢
    split
    · next hpos =>
      have hbound : block.left + block.size ≤ a.length := hwithin
      have hleft : matched ((a.take block.left).map (·.before block.right)) (y.take block.right) ≤
          common ((a.map Spot.char).take block.left) (y.take block.right) := by
        rw [← List.map_take]
        refine hside ?_ rfl fun s hs => (hvalid s (List.mem_of_mem_take hs)).before _
        rw [List.length_take]
        omega
      have hright : matched ((a.drop (block.left + block.size)).map
            (·.behind (block.right + block.size))) (y.drop (block.right + block.size)) ≤
          common ((a.map Spot.char).drop (block.left + block.size))
            (y.drop (block.right + block.size)) := by
        rw [← List.map_drop]
        refine hside ?_ rfl fun s hs => (hvalid s (List.mem_of_mem_drop hs)).behind _
        rw [List.length_drop]
        omega
      exact (Nat.add_le_add (Nat.add_le_add_right hleft _) hright).trans hcommon.common_le
    · exact Nat.zero_le _

end Linkage.Similarity
