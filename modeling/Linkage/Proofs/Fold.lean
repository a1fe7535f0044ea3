/-!
# Folds — steps that may fail, taken one after another

A reader and a pass go through a list with a step that may fail.  Such a fold succeeds when every
step does (`foldlM_eq_ok`, for steps whose success depends on the element alone), and fails with the
error of the first step that fails: `foldlM_eq_error` names that step and the value the steps before
it have reached.  Where the failures of a step are faults of the elements (`FailsWith`), the fold
reports the first of them (`FirstFault`).
-/

namespace Linkage

variable {ε α β γ : Type}

/-! ### One step after another -/

theorem bind_eq_ok {x : Except ε α} {f : α → Except ε β} {b : β} :
    (x >>= f) = .ok b ↔ ∃ a, x = .ok a ∧ f a = .ok b := by
  constructor
  · intro h
    cases x with
    | ok a => exact ⟨a, rfl, h⟩
    | error e => cases h
  · rintro ⟨a, rfl, h⟩
    exact h

theorem bind_eq_error {x : Except ε α} {f : α → Except ε β} {e : ε} :
    (x >>= f) = .error e ↔ x = .error e ∨ ∃ a, x = .ok a ∧ f a = .error e := by
  constructor
  · intro h
    cases x with
    | ok a => exact .inr ⟨a, rfl, h⟩
    | error e' => exact .inl (by cases h; rfl)
  · rintro (rfl | ⟨a, rfl, h⟩)
    · rfl
    · exact h

theorem map_eq_ok {x : Except ε α} {f : α → β} {b : β} :
    x.map f = .ok b ↔ ∃ a, x = .ok a ∧ f a = b := by
  cases x <;> simp [Except.map]

theorem map_eq_error {x : Except ε α} {f : α → β} {e : ε} :
    x.map f = .error e ↔ x = .error e := by
  cases x <;> simp [Except.map]

/-- An element put at the end of a list before the list is mapped, or after. -/
theorem map_concat (f : α → β) (xs : List α) (x : α) : xs.map f ++ [f x] = (xs ++ [x]).map f := by
  rw [List.map_append, List.map_singleton]

/-- Elements put at the end of a list one after another. -/
theorem foldl_concat (f : α → β) (xs : List α) (ys : List β) :
    xs.foldl (fun ys x => ys ++ [f x]) ys = ys ++ xs.map f := by
  induction xs generalizing ys with
  | nil => exact (List.append_nil ys).symm
  | cons x xs ih =>
    rw [List.foldl_cons, ih, List.append_assoc, List.map_cons, List.singleton_append]

/-- The images of the elements that a test keeps. -/
theorem map_filter_eq_filterMap {xs : List α} {p : α → Bool} {f : α → β} :
    (xs.filter p).map f = xs.filterMap fun x => if p x = true then some (f x) else none := by
  rw [← List.filterMap_eq_map, List.filterMap_filter]
  rfl

variable {f : β → α → Except ε β}

/-- What every step preserves, the fold preserves. -/
theorem foldlM_preserves {P : β → Prop} {xs : List α} {b b' : β}
    (hf : ∀ b x b', x ∈ xs → P b → f b x = .ok b' → P b') (hb : P b)
    (h : xs.foldlM f b = .ok b') : P b' := by
  induction xs generalizing b with
  | nil => cases h; exact hb
  | cons x xs ih =>
    rw [List.foldlM_cons, bind_eq_ok] at h
    obtain ⟨c, hc, h⟩ := h
    exact ih (fun b y b' hy => hf b y b' (List.mem_cons_of_mem x hy))
      (hf b x c List.mem_cons_self hb hc) h

/-- A fold whose steps succeed on the good elements succeeds when all elements are good. -/
theorem foldlM_eq_ok {good : α → Prop} {next : β → α → β}
    (hf : ∀ b x b', f b x = .ok b' ↔ good x ∧ next b x = b') {xs : List α} {b b' : β} :
    xs.foldlM f b = .ok b' ↔ (∀ x ∈ xs, good x) ∧ xs.foldl next b = b' := by
  induction xs generalizing b with
  | nil =>
    constructor
    · rintro ⟨⟩
      exact ⟨fun _ hx => absurd hx List.not_mem_nil, rfl⟩
    · rintro ⟨-, rfl⟩
      rfl
  | cons x xs ih =>
    rw [List.foldlM_cons, bind_eq_ok, List.forall_mem_cons, List.foldl_cons]
    constructor
    · rintro ⟨c, hc, h⟩
      obtain ⟨hx, rfl⟩ := (hf b x c).1 hc
      obtain ⟨hxs, rfl⟩ := ih.1 h
      exact ⟨⟨hx, hxs⟩, rfl⟩
    · rintro ⟨⟨hx, hxs⟩, rfl⟩
      exact ⟨next b x, (hf b x _).2 ⟨hx, rfl⟩, ih.2 ⟨hxs, rfl⟩⟩

/-- A fold fails with the error of the first step that fails. -/
theorem foldlM_eq_error {xs : List α} {b : β} {e : ε} :
    xs.foldlM f b = .error e ↔
      ∃ pre x post c, xs = pre ++ x :: post ∧ pre.foldlM f b = .ok c ∧ f c x = .error e := by
  induction xs generalizing b with
  | nil =>
    constructor
    · intro h
      cases h
    · rintro ⟨pre, x, post, c, h, -⟩
      exact absurd h.symm (List.append_ne_nil_of_right_ne_nil pre (List.cons_ne_nil x post))
  | cons y ys ih =>
    rw [List.foldlM_cons, bind_eq_error]
    constructor
    · rintro (h | ⟨b', hb', h⟩)
      · exact ⟨[], y, ys, b, rfl, rfl, h⟩
      · obtain ⟨pre, x, post, c, rfl, hpre, hx⟩ := ih.1 h
        exact ⟨y :: pre, x, post, c, rfl, bind_eq_ok.2 ⟨b', hb', hpre⟩, hx⟩
    · rintro ⟨pre, x, post, c, h, hpre, hx⟩
      cases pre with
      | nil =>
        cases h
        cases hpre
        exact .inl hx
      | cons p pre =>
        cases h
        obtain ⟨b', hb', hpre⟩ := bind_eq_ok.1 hpre
        exact .inr ⟨b', hb', ih.2 ⟨pre, x, post, c, rfl, hpre, hx⟩⟩

/-! ### The first fault -/

/-- The fault that a list reports is that of the first element with one.  Whether an element has a
fault may depend on the elements before it. -/
def FirstFault (fault : List α → α → ε → Prop) (xs : List α) (e : ε) : Prop :=
  ∃ pre x post, xs = pre ++ x :: post ∧ fault pre x e ∧
    ∀ pre' y mid e', pre = pre' ++ y :: mid → ¬ fault pre' y e'

section

variable {fault : List α → α → ε → Prop} {xs : List α} {b : β} {e : ε}

/-- A list that has a fault has a first one. -/
theorem exists_firstFault_iff :
    (∃ e, FirstFault fault xs e) ↔ ∃ pre x post e, xs = pre ++ x :: post ∧ fault pre x e := by
  constructor
  · rintro ⟨e, pre, x, post, hxs, hx, -⟩
    exact ⟨pre, x, post, e, hxs, hx⟩
  · rintro ⟨pre, x, post, e, hxs, hx⟩
    -- by induction on the number of elements before it: an earlier fault has fewer
    induction hn : pre.length using Nat.strongRecOn generalizing pre x post e with
    | ind n ih =>
      by_cases hfirst : ∃ pre' y mid e', pre = pre' ++ y :: mid ∧ fault pre' y e'
      · obtain ⟨pre', y, mid, e', rfl, hy⟩ := hfirst
        refine ih pre'.length ?_ pre' y (mid ++ x :: post) e' (by simp [hxs]) hy rfl
        rw [← hn, List.length_append, List.length_cons]
        omega
      · exact ⟨e, pre, x, post, hxs, hx, fun pre' y mid e' hsplit hy =>
          hfirst ⟨pre', y, mid, e', hsplit, hy⟩⟩

/-- Where faults do not depend on what is before, a list has a first one when an element has one. -/
theorem exists_firstFault_iff_mem {fault : α → ε → Prop} :
    (∃ e, FirstFault (fun _ => fault) xs e) ↔ ∃ x ∈ xs, ∃ e, fault x e := by
  rw [exists_firstFault_iff]
  constructor
  · rintro ⟨pre, x, post, e, rfl, hx⟩
    exact ⟨x, List.mem_append_cons_self, e, hx⟩
  · rintro ⟨x, hmem, e, hx⟩
    obtain ⟨pre, post, rfl⟩ := List.append_of_mem hmem
    exact ⟨pre, x, post, e, rfl, hx⟩

/-- Behind elements that are accepted, a step fails with the faults of the element. -/
def FailsWith (f : β → α → Except ε β) (b : β) (fault : List α → α → ε → Prop) (xs : List α) :
    Prop :=
  ∀ pre x post c e, xs = pre ++ x :: post → pre.foldlM f b = .ok c →
    (f c x = .error e ↔ fault pre x e)

/-- No element of a list that is accepted has a fault. -/
theorem FailsWith.not_fault {ys rest : List α} {c : β} (h : FailsWith f b fault xs)
    (hxs : xs = ys ++ rest) (hys : ys.foldlM f b = .ok c) {pre : List α} {x : α} {mid : List α}
    (hsplit : ys = pre ++ x :: mid) : ¬ fault pre x e := by
  intro hx
  rw [hsplit, List.foldlM_append] at hys
  obtain ⟨c', hpre, hmid⟩ := bind_eq_ok.1 hys
  obtain ⟨c'', hstep, -⟩ := bind_eq_ok.1 hmid
  have herr := (h pre x (mid ++ rest) c' e (by rw [hxs, hsplit]; simp) hpre).2 hx
  cases hstep.symm.trans herr

/-- **A fold reports the first fault.** -/
theorem FailsWith.eq_error_iff (h : FailsWith f b fault xs) :
    xs.foldlM f b = .error e ↔ FirstFault fault xs e := by
  constructor
  · intro he
    obtain ⟨pre, x, post, c, hxs, hpre, hx⟩ := foldlM_eq_error.1 he
    exact ⟨pre, x, post, hxs, (h pre x post c e hxs hpre).1 hx,
      fun _ _ _ _ hsplit => h.not_fault hxs hpre hsplit⟩
  · rintro ⟨pre, x, post, hxs, hx, hnone⟩
    cases hpre : pre.foldlM f b with
    | ok c => exact foldlM_eq_error.2 ⟨pre, x, post, c, hxs, hpre, (h pre x post c e hxs hpre).2 hx⟩
    | error e' =>
      -- the step that fails would be at an element with a fault before `x`
      obtain ⟨pre', y, mid, c, hsplit, hpre', hy⟩ := foldlM_eq_error.1 hpre
      have hxs' : xs = pre' ++ y :: (mid ++ x :: post) := by rw [hxs, hsplit]; simp
      exact absurd ((h pre' y _ c e' hxs' hpre').1 hy) (hnone pre' y mid e' hsplit)

end

end Linkage
