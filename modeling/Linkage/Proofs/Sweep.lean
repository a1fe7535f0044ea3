import Linkage.Pass.Outcome
import Linkage.Proofs.Fold

/-!
# Sweeps — what a pass over the parts of a program makes of them

A sweep visits parts in order.  Its result is the fold of the visits (`result_sweep`), so what is
known of folds applies to it, such as when it succeeds (`sweep_eq_ok`).  A sweep that succeeds has
reached every part, and where a visit that succeeds always makes the same of a part, the sweep has
mapped the parts (`reached_sweep`).  A sweep that fails has a part at which it stops
(`sweep_eq_error`): it has gone over the parts before that one, and the parts behind it are as they
were.

A sweep over lists of parts, each itself swept, is the fold over all parts one after another
(`foldlM_flatMap_map`).
-/

namespace Linkage

variable {σ τ α ε : Type} {visit : Nat → α → σ → Outcome σ α} {i : Nat} {a b : α} {xs : List σ}

/-- The result of a sweep is the fold of its visits. -/
theorem result_sweep (visit : Nat → α → σ → Outcome σ α) (i : Nat) (a : α) (xs : List σ) :
    (sweep visit i a xs).result =
      (xs.zipIdx i).foldlM (fun a site => (visit site.2 a site.1).result) a := by
  induction xs generalizing i a with
  | nil => rfl
  | cons x xs ih =>
    rw [List.zipIdx_cons, List.foldlM_cons]
    cases h : (visit i a x).result with
    | error e => rw [sweep_cons_error h]; rfl
    | ok b => rw [sweep_cons_ok h, ih]; rfl

/-- The result of a sweep whose visits do not look at the position. -/
theorem result_sweep_of_forall {step : α → σ → Except Failure α}
    (h : ∀ i a x, (visit i a x).result = step a x) (i : Nat) (a : α) (xs : List σ) :
    (sweep visit i a xs).result = xs.foldlM step a := by
  have hf : (fun a (site : σ × Nat) => (visit site.2 a site.1).result) =
      fun a site => step a site.1 := by
    funext a site
    exact h site.2 a site.1
  rw [result_sweep, hf, ← List.foldlM_map, List.zipIdx_map_fst]

/-- A sweep whose visits succeed on the good parts succeeds when all parts are good. -/
theorem sweep_eq_ok {good : σ → Prop} {next : α → σ → α}
    (h : ∀ i a x b, (visit i a x).result = .ok b ↔ good x ∧ next a x = b) :
    (sweep visit i a xs).result = .ok b ↔ (∀ x ∈ xs, good x) ∧ xs.foldl next a = b := by
  rw [result_sweep, foldlM_eq_ok fun a site b => h site.2 a site.1 b, ← List.foldl_map,
    ← List.forall_mem_map, List.zipIdx_map_fst]

/-- A sweep that succeeds has made of each part what the visits make of it. -/
theorem reached_sweep {new : σ → σ}
    (h : ∀ i a x b, (visit i a x).result = .ok b → (visit i a x).reached = new x)
    (hs : (sweep visit i a xs).result = .ok b) : (sweep visit i a xs).reached = xs.map new := by
  induction xs generalizing i a with
  | nil => rfl
  | cons x xs ih =>
    cases hx : (visit i a x).result with
    | error e => rw [sweep_cons_error hx] at hs; cases hs
    | ok c =>
      rw [sweep_cons_ok hx] at hs ⊢
      rw [List.map_cons, h i a x c hx, ih hs]

/-- A sweep that fails has gone over the parts before the one whose visit fails, and leaves the parts
behind it as they are. -/
theorem sweep_eq_error {f : Failure} (h : (sweep visit i a xs).result = .error f) :
    ∃ pre x post b, xs = pre ++ x :: post ∧ (sweep visit i a pre).result = .ok b ∧
      (visit (i + pre.length) b x).result = .error f ∧
        (sweep visit i a xs).reached =
          (sweep visit i a pre).reached ++ (visit (i + pre.length) b x).reached :: post := by
  induction xs generalizing i a with
  | nil => cases h
  | cons x xs ih =>
    cases hx : (visit i a x).result with
    | error f' =>
      rw [sweep_cons_error hx] at h ⊢
      cases h
      exact ⟨[], x, xs, a, rfl, rfl, hx, rfl⟩
    | ok c =>
      rw [sweep_cons_ok hx] at h ⊢
      obtain ⟨pre, y, post, b, rfl, hpre, hy, hreached⟩ := ih h
      have hpos : i + 1 + pre.length = i + (x :: pre).length := by
        rw [List.length_cons]
        omega
      rw [hpos] at hy hreached
      refine ⟨x :: pre, y, post, b, rfl, ?_, hy, ?_⟩
      · rw [sweep_cons_ok hx]
        exact hpre
      · rw [sweep_cons_ok hx, hreached]
        rfl

/-- A fold over parts that are folded in turn is one fold over all of their parts. -/
theorem foldlM_flatMap_map {step : α → σ × τ → Except ε α} (parts : σ → List τ) (xs : List σ)
    (a : α) :
    xs.foldlM (fun a x => (parts x).foldlM (fun a y => step a (x, y)) a) a =
      (xs.flatMap fun x => (parts x).map (Prod.mk x)).foldlM step a := by
  induction xs generalizing a with
  | nil => rfl
  | cons x xs ih =>
    rw [List.flatMap_cons, List.foldlM_append, List.foldlM_cons, List.foldlM_map]
    exact bind_congr fun b => ih b

end Linkage
