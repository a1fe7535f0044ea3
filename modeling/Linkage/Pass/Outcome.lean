import Linkage.Event

/-!
# Passes — visiting the parts of a program in order

A pass visits the parts of a program in order and carries a value from part to part.  A visit may
change the part, report events, and fail; the pass stops at the first failure.  What has been
changed by then stays changed, also in the part whose visit failed, and the parts behind it are
untouched: an `Outcome` keeps what was reached beside the result.

`sweep` visits a list of parts, and `sweep_cons_ok` and `sweep_cons_error` are its two equations.
-/

namespace Linkage

/-- What a visit made of a part, what it reported, and the value it passes on or the failure that
stopped it. -/
structure Outcome (σ α : Type) where
  reached : σ
  events : List Event
  result : Except Failure α

namespace Outcome

/-- The outcome with another view of what was reached. -/
def mapReached {σ τ α : Type} (f : σ → τ) (o : Outcome σ α) : Outcome τ α :=
  ⟨f o.reached, o.events, o.result⟩

end Outcome

/-- Visits the parts of a list in order, the first of which stands at position `i`. -/
def sweep {σ α : Type} (visit : Nat → α → σ → Outcome σ α) (i : Nat) (a : α) :
    List σ → Outcome (List σ) α
  | []      => ⟨[], [], .ok a⟩
  | x :: xs =>
    let o := visit i a x
    match o.result with
    | .error e => ⟨o.reached :: xs, o.events, .error e⟩
    | .ok b    =>
      let rest := sweep visit (i + 1) b xs
      ⟨o.reached :: rest.reached, o.events ++ rest.events, rest.result⟩

section

variable {σ α : Type} {visit : Nat → α → σ → Outcome σ α} {i : Nat} {a b : α} {x : σ} {xs : List σ}

/-- A visit that fails ends the sweep. -/
theorem sweep_cons_error {e : Failure} (h : (visit i a x).result = .error e) :
    sweep visit i a (x :: xs) =
      ⟨(visit i a x).reached :: xs, (visit i a x).events, .error e⟩ := by
  simp [sweep, h]

/-- After a visit that succeeds the sweep goes on with the value it passes on. -/
theorem sweep_cons_ok (h : (visit i a x).result = .ok b) :
    sweep visit i a (x :: xs) =
      ⟨(visit i a x).reached :: (sweep visit (i + 1) b xs).reached,
        (visit i a x).events ++ (sweep visit (i + 1) b xs).events,
        (sweep visit (i + 1) b xs).result⟩ := by
  simp [sweep, h]

/-- A sweep keeps the number of parts. -/
theorem length_reached_sweep (visit : Nat → α → σ → Outcome σ α) (i : Nat) (a : α) (xs : List σ) :
    (sweep visit i a xs).reached.length = xs.length := by
  induction xs generalizing i a with
  | nil => rfl
  | cons x xs ih =>
    cases h : (visit i a x).result with
    | error e => simp [sweep_cons_error h]
    | ok b => simp [sweep_cons_ok h, ih]

end

end Linkage
