import Mathlib.Algebra.Order.Field.Rat
import Mathlib.Data.Prod.Lex
import Mathlib.Data.String.Basic
import Mathlib.Tactic.NormNum
import Linkage.Proofs.Fold
import Linkage.Proofs.Similarity.Blocks

/-!
# Similarity — the names that are close to a name, best first

The similarity of two names is a fraction (`similarity`).  A name is close to another one when its
similarity to it is at least three fifths.  The bounds that are tried before the blocks are looked
for hide no close name: they are passed by any number that is not smaller than one that passes
(`reaches_mono`), and they are bounds (`matchedSize_le_common`, `common_le_min`).

A ranking puts the more similar names first, and of equally similar ones those that are later in the
order of names (`ComesBefore`).  **The close names are the first three of that ranking**
(`best_closeNames`), and no other names are (`Best.unique`).
-/

namespace Linkage.Similarity

variable {b x y : String} {names : List String} {m n t : Nat}

/-! ### The similarity of two names -/

/-- The number of characters in the common blocks of two names. -/
def matchedSize (x b : String) : Nat :=
  matched (x.toList.map (.of (isPopular b.toList) b.toList)) b.toList

/-- A name whose characters are all popular has nothing in common with a name that begins
differently. -/
theorem matchedSize_eq_zero_of_popular (hb : ∀ c ∈ b.toList, isPopular b.toList c = true)
    (hstart : x.toList.head? ≠ b.toList.head?) : matchedSize x b = 0 := by
  refine matched_of_places_eq_nil (List.forall_mem_map.2 fun c _ => ?_) ?_
  · show (if isPopular b.toList c = true then [] else placesFrom c 0 b.toList) = []
    split
    · rfl
    · next hc => exact placesFrom_eq_nil (fun hmem => hc (hb c hmem)) 0
  · cases hx : x.toList with
    | nil => rfl
    | cons c cs =>
      cases hy : b.toList with
      | nil => rfl
      | cons d ds =>
        rw [hx, hy] at hstart
        exact if_neg fun h : c = d => hstart (congrArg some h)

/-- The sum of the lengths of two names. -/
def totalSize (x b : String) : Nat := x.toList.length + b.toList.length

/-- The similarity of a name to the name `b`. -/
def similarity (x b : String) : ℚ := 2 * matchedSize x b / totalSize x b

theorem similarity_eq_zero (h : matchedSize x b = 0) : similarity x b = 0 := by
  rw [similarity, h, Nat.cast_zero, mul_zero, zero_div]

theorem totalSize_pos (h : x ≠ b) : 0 < totalSize x b := by
  rw [totalSize, Nat.pos_iff_ne_zero]
  intro hzero
  have hx : x.toList = [] := List.eq_nil_of_length_eq_zero (Nat.eq_zero_of_add_eq_zero hzero).1
  have hb : b.toList = [] := List.eq_nil_of_length_eq_zero (Nat.eq_zero_of_add_eq_zero hzero).2
  exact h (String.toList_inj.1 (hx.trans hb.symm))

theorem reaches_similarity (h : x ≠ b) :
    reaches (matchedSize x b) (totalSize x b) = true ↔ 3 / 5 ≤ similarity x b := by
  have ht : (0 : ℚ) < totalSize x b := Nat.cast_pos.2 (totalSize_pos h)
  rw [reaches, decide_eq_true_iff, similarity, div_le_div_iff₀ (by norm_num) ht]
  norm_cast
  rw [Nat.mul_right_comm]

/-! ### The bounds that are tried first -/

theorem reaches_mono (hmn : m ≤ n) (h : reaches m t = true) : reaches n t = true := by
  simp only [reaches, decide_eq_true_iff] at h ⊢
  omega

/-- The characters in the common blocks are common to the names. -/
theorem matchedSize_le_common (x b : String) : matchedSize x b ≤ common x.toList b.toList := by
  have hvalid : ∀ s ∈ x.toList.map (Spot.of (isPopular b.toList) b.toList), s.Valid b.toList :=
    List.forall_mem_map.2 fun c _ => Spot.valid_of _ _ c
  have hle := matched_le_common hvalid
  rw [List.map_map] at hle
  exact hle.trans_eq (congrArg (common · b.toList) (List.map_id _))

/-- **The bounds hide no close name.** -/
theorem reaches_bounds (h : reaches (matchedSize x b) (totalSize x b) = true) :
    reaches (min x.toList.length b.toList.length) (totalSize x b) = true ∧
      reaches (common x.toList b.toList) (totalSize x b) = true := by
  have hcommon := matchedSize_le_common x b
  have hmin := common_le_min x.toList b.toList
  exact ⟨reaches_mono (hcommon.trans hmin) h, reaches_mono hcommon h⟩

/-- The candidate that the name `x` is for the name `b`. -/
def candidate (b x : String) : Candidate := ⟨x, matchedSize x b, totalSize x b⟩

theorem candidate?_eq (b x : String) :
    candidate? b x =
      if reaches (matchedSize x b) (totalSize x b) = true then some (candidate b x) else none := by
  unfold candidate?
  by_cases h : reaches (matchedSize x b) (totalSize x b) = true
  · rw [if_pos h]
    exact (if_pos (Bool.and_eq_true_iff.2 (reaches_bounds h))).trans (if_pos h)
  · rw [if_neg h]
    exact ite_eq_right_iff.2 fun _ => if_neg h

/-! ### The ranking -/

/-- In a ranking the name `x` comes before `y`: it is more similar to `b`, or as similar and behind
`y` in the order of names. -/
def ComesBefore (b x y : String) : Prop :=
  similarity y b < similarity x b ∨ similarity y b = similarity x b ∧ y < x

/-- What names are ranked by. -/
def rank (b x : String) : ℚ ×ₗ String := toLex (similarity x b, x)

theorem comesBefore_iff : ComesBefore b x y ↔ rank b y < rank b x := by
  rw [rank, rank, Prod.Lex.toLex_lt_toLex, ComesBefore]

theorem rank_inj (h : rank b x = rank b y) : x = y := congrArg (fun p => (ofLex p).2) h

theorem similarity_lt_iff (hx : x ≠ b) (hy : y ≠ b) :
    similarity y b < similarity x b ↔
      matchedSize y b * totalSize x b < matchedSize x b * totalSize y b := by
  have hx' : (0 : ℚ) < totalSize x b := Nat.cast_pos.2 (totalSize_pos hx)
  have hy' : (0 : ℚ) < totalSize y b := Nat.cast_pos.2 (totalSize_pos hy)
  rw [similarity, similarity, div_lt_div_iff₀ hy' hx', mul_assoc, mul_assoc,
    mul_lt_mul_iff_right₀ two_pos]
  norm_cast

theorem similarity_eq_iff (hx : x ≠ b) (hy : y ≠ b) :
    similarity y b = similarity x b ↔
      matchedSize x b * totalSize y b = matchedSize y b * totalSize x b := by
  have hx' : (totalSize x b : ℚ) ≠ 0 := Nat.cast_ne_zero.2 (totalSize_pos hx).ne'
  have hy' : (totalSize y b : ℚ) ≠ 0 := Nat.cast_ne_zero.2 (totalSize_pos hy).ne'
  rw [similarity, similarity, div_eq_div_iff hy' hx', mul_assoc, mul_assoc,
    mul_right_inj' two_ne_zero, eq_comm]
  norm_cast

theorem ranksAbove_iff (c d : Candidate) : c.ranksAbove d = true ↔
    d.matched * c.total < c.matched * d.total ∨
      c.matched * d.total = d.matched * c.total ∧ d.name ≤ c.name := by
  simp only [Candidate.ranksAbove, Bool.or_eq_true, Bool.and_eq_true, beq_iff_eq,
    decide_eq_true_iff, Bool.not_eq_true', decide_eq_false_iff_not]
  rfl

/-- Candidates are compared as the names are ranked. -/
theorem ranksAbove_candidate (hx : x ≠ b) (hy : y ≠ b) :
    (candidate b x).ranksAbove (candidate b y) = decide (rank b y ≤ rank b x) := by
  rw [Bool.eq_iff_iff, decide_eq_true_iff, ranksAbove_iff, rank, rank, Prod.Lex.toLex_le_toLex,
    similarity_lt_iff hx hy, similarity_eq_iff hx hy]
  rfl

/-- The names that are close to `b`, best first. -/
def ranked (names : List String) (b : String) : List String :=
  (names.filter fun n => reaches (matchedSize n b) (totalSize n b)).mergeSort fun x y =>
    decide (rank b y ≤ rank b x)

theorem mem_ranked (hb : b ∉ names) {x : String} :
    x ∈ ranked names b ↔ x ∈ names ∧ 3 / 5 ≤ similarity x b := by
  rw [ranked, List.mem_mergeSort, List.mem_filter]
  refine and_congr_right fun hx => ?_
  exact reaches_similarity fun h => hb (h ▸ hx)

theorem nodup_ranked (hnames : names.Nodup) (b : String) : (ranked names b).Nodup :=
  (List.mergeSort_perm _ _).nodup_iff.2 (hnames.filter _)

/-- Of two close names the better one comes first. -/
theorem pairwise_ranked (hnames : names.Nodup) (b : String) :
    (ranked names b).Pairwise (ComesBefore b) := by
  have hsorted : (ranked names b).Pairwise fun x y => decide (rank b y ≤ rank b x) = true := by
    refine List.pairwise_mergeSort ?_ ?_ _
    · intro x y z hxy hyz
      exact decide_eq_true ((of_decide_eq_true hyz).trans (of_decide_eq_true hxy))
    · intro x y
      rw [Bool.or_eq_true, decide_eq_true_iff, decide_eq_true_iff]
      exact le_total _ _
  refine hsorted.imp₂ (fun x y hle hxy => ?_) (nodup_ranked hnames b)
  exact comesBefore_iff.2 ((of_decide_eq_true hle).lt_of_ne fun h => hxy (rank_inj h).symm)

/-- The candidates are ranked as their names are. -/
theorem ranking_eq (hb : b ∉ names) : ranking names b = (ranked names b).map (candidate b) := by
  have hcandidates : names.filterMap (candidate? b) =
      (names.filter fun n => reaches (matchedSize n b) (totalSize n b)).map (candidate b) := by
    rw [map_filter_eq_filterMap]
    exact List.filterMap_congr fun n _ => candidate?_eq b n
  have hne : ∀ n ∈ names.filter (fun n => reaches (matchedSize n b) (totalSize n b)), n ≠ b :=
    fun n hn h => hb (h ▸ List.mem_of_mem_filter hn)
  rw [ranking, hcandidates]
  exact (List.map_mergeSort fun x hx y hy =>
    (ranksAbove_candidate (hne x hx) (hne y hy)).symm).symm

/-! ### The best names -/

/-- The names `similar` are the best three of the names that are close to `b`. -/
structure Best (names : List String) (b : String) (similar : List String) : Prop where
  nodup : similar.Nodup
  notMem : b ∉ similar
  /-- They are the first in a ranking of all close names. -/
  ranked : ∃ ranked : List String, similar = ranked.take 3 ∧ ranked.Pairwise (ComesBefore b) ∧
    ∀ n, n ∈ ranked ↔ n ∈ names ∧ 3 / 5 ≤ similarity n b

/-- **The close names are the best three.** -/
theorem best_closeNames (hb : b ∉ names) (hnames : names.Nodup) :
    Best names b (closeNames names b) := by
  have htake : closeNames names b = (ranked names b).take 3 := by
    rw [closeNames, ranking_eq hb, ← List.map_take, List.map_map]
    exact List.map_id _
  rw [htake]
  constructor
  · exact (nodup_ranked hnames b).sublist (List.take_sublist 3 _)
  · exact fun h => hb ((mem_ranked hb).1 (List.mem_of_mem_take h)).1
  · exact ⟨ranked names b, rfl, pairwise_ranked hnames b, fun n => mem_ranked hb⟩

theorem ComesBefore.ne (h : ComesBefore b x y) : x ≠ y := by
  rintro rfl
  exact lt_irrefl _ (comesBefore_iff.1 h)

/-- **The best names are determined**: a ranking has no ties, so two rankings of the same names are
the same. -/
theorem Best.unique {similar similar' : List String} (h : Best names b similar)
    (h' : Best names b similar') : similar = similar' := by
  obtain ⟨ranked, rfl, hsorted, hmem⟩ := h.ranked
  obtain ⟨ranked', rfl, hsorted', hmem'⟩ := h'.ranked
  have hperm : ranked.Perm ranked' :=
    (List.perm_ext_iff_of_nodup (hsorted.imp fun hxy => hxy.ne)
      (hsorted'.imp fun hxy => hxy.ne)).2 fun n => (hmem n).trans (hmem' n).symm
  have heq : ranked = ranked' :=
    hperm.eq_of_pairwise (fun x y _ _ hxy hyx =>
      absurd ((comesBefore_iff.1 hxy).trans (comesBefore_iff.1 hyx)) (lt_irrefl _)) hsorted hsorted'
  rw [heq]

theorem Best.congr {names' similar : List String} (h : Best names b similar)
    (hnames : ∀ n, n ∈ names ↔ n ∈ names') : Best names' b similar := by
  obtain ⟨ranked, hsimilar, hsorted, hmem⟩ := h.ranked
  exact ⟨h.nodup, h.notMem, ranked, hsimilar, hsorted, fun n => by rw [hmem, hnames]⟩

/-- There is a best name when there is a close one. -/
theorem Best.ne_nil_iff {similar : List String} (h : Best names b similar) :
    similar ≠ [] ↔ ∃ n ∈ names, 3 / 5 ≤ similarity n b := by
  obtain ⟨ranked, rfl, -, hmem⟩ := h.ranked
  constructor
  · intro hne
    obtain ⟨n, hn⟩ := List.exists_mem_of_ne_nil _ hne
    exact ⟨n, (hmem n).1 (List.mem_of_mem_take hn)⟩
  · rintro ⟨n, hn⟩ hnil
    rcases List.take_eq_nil_iff.1 hnil with h | h
    · cases h
    · exact List.ne_nil_of_mem ((hmem n).2 hn) h

end Linkage.Similarity
