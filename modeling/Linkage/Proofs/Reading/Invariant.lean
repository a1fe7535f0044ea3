import Mathlib.Logic.Function.Basic
import Linkage.Proofs.Layout
import Linkage.Proofs.Reading.Continuation

/-!
# Reading — the invariant of a reader

A reader does not keep the counts it has read, only the number of tokens it still expects.  So the
invariant speaks of a *history* beside the reader (`History`): the counts of the current module's
sections, and the modules before that one with theirs.  The history looks on: it changes where a
count is read (`History.after`), and no step depends on it.

In every section of the current module the items that are there and the items that are due make up
the count (`Tally`).  An item that is completed is one less to come (`Tally.item`), a count opens
its section (`Tally.count`), and behind the instructions every section has as many items as were
declared (`Tally.complete`).  `Tallied` says so of a reader and its history, and each step keeps it
(`Tallied.step`).

**The invariant** (`Invariant`) adds what depends on the state alone: when a token is pending, and
which it is.  It holds behind all tokens that are read (`run_invariant`), and the modules that have
been placed stay as they are.
-/

namespace Linkage

/-! ### Items and counts -/

/-- The counts of a module's sections, as far as they have been read. -/
abbrev Counts := Section → Option Nat

/-- The place of the section in a module. -/
def Section.position : Section → Nat
  | .definitions  => 0
  | .uses         => 1
  | .instructions => 2

theorem Section.position_inj {p q : Section} : p.position = q.position ↔ p = q := by
  cases p <;> cases q <;> decide

theorem Section.position_next {p : Section} (h : p ≠ .instructions) :
    p.next.position = p.position + 1 := by
  cases p with
  | definitions => rfl
  | uses => rfl
  | instructions => exact absurd rfl h

/-- The number of items that the module has in a section. -/
def Module.itemCount (m : Module) : Section → Nat
  | .definitions  => m.definitions.length
  | .uses         => m.uses.length
  | .instructions => m.instructions.length

theorem Module.itemCount_empty (q : Section) : ({} : Module).itemCount q = 0 := by
  cases q <;> rfl

section

variable (m : Module) (q : Section)

theorem Module.itemCount_addDefinition (d : Definition) :
    (m.addDefinition d).itemCount q = m.itemCount q + if q = .definitions then 1 else 0 := by
  cases q <;> simp [itemCount, addDefinition]

theorem Module.itemCount_addUse (u : Use) :
    (m.addUse u).itemCount q = m.itemCount q + if q = .uses then 1 else 0 := by
  cases q <;> simp [itemCount, addUse]

theorem Module.itemCount_addInstruction (x : Instruction) :
    (m.addInstruction x).itemCount q = m.itemCount q + if q = .instructions then 1 else 0 := by
  cases q <;> simp [itemCount, addInstruction]

end

namespace Reading

open State

variable {settings : Settings} {part : Section} {k n : Nat} {m m' : Module} {st : Store}
  {t first : Token} {ts us : List Token} {r r' : Reading}

/-- The number of items of the section that are still to be completed: the expected tokens divided
by the tokens of an item, rounded up.  None are due in a section that is not being read. -/
def State.itemsDue (s : State) (q : Section) : Int :=
  if q = s.part then (s.remaining + q.tokensPerItem - 1) / q.tokensPerItem else 0

theorem State.itemsDue_due (q : Section) :
    (due part k).itemsDue q = if q = part then (k : Int) else 0 := by
  cases k with
  | zero =>
    rw [due_zero]
    cases part <;> cases q <;> rfl
  | succ k =>
    rw [due_succ, itemsDue]
    by_cases hq : q = part
    · subst hq
      rw [if_pos rfl, if_pos rfl]
      cases q <;> simp only [Section.tokensPerItem] <;> omega
    · rw [if_neg hq, if_neg hq]

theorem State.itemsDue_half (hpart : part.tokensPerItem = 2) (q : Section) :
    (half part k first).itemsDue q = if q = part then ((k + 1 : Nat) : Int) else 0 := by
  by_cases hq : q = part
  · subst hq
    rw [itemsDue, half, if_pos rfl, if_pos rfl, hpart]
    show ((k : Int) * 2 + 1 + 2 - 1) / 2 = ((k + 1 : Nat) : Int)
    omega
  · exact (if_neg hq).trans (if_neg hq).symm

/-- The count of the section has been read: the section stands before the current one; or tokens of
it are expected; or the module has all its sections. -/
def HasCounted (r : Reading) (q : Section) : Prop :=
  r.current.isSome ∧ (q.position < r.state.part.position ∨
    if r.state.remaining = 0 then r.state.part = .definitions else q = r.state.part)

theorem hasCounted_due (q : Section) :
    HasCounted ⟨due part k, some m, st⟩ q ↔ q.position ≤ part.position := by
  cases k with
  | zero =>
    rw [due_zero]
    cases part <;> cases q <;> simp [HasCounted, beginning, Section.next, Section.position]
  | succ k =>
    rw [HasCounted, if_neg (remaining_due_succ_ne_zero part k), due_succ, ← Section.position_inj,
      Nat.le_iff_lt_or_eq]
    exact and_iff_right rfl

theorem hasCounted_half (q : Section) :
    HasCounted ⟨half part k first, some m, st⟩ q ↔ q.position ≤ part.position := by
  rw [HasCounted, if_neg (remaining_half_ne_zero part k first), half, ← Section.position_inj,
    Nat.le_iff_lt_or_eq]
  exact and_iff_right rfl

/-! ### The tally of a module -/

/-- In every section the items of the module, and in the section `part` also the `k` that are due,
make up the count; the counts have been read as far as that section. -/
structure Tally (counts : Counts) (part : Section) (k : Nat) (m : Module) : Prop where
  counted : ∀ q, (counts q).isSome ↔ q.position ≤ part.position
  total : ∀ q, m.itemCount q + (if q = part then k else 0) = (counts q).getD 0

namespace Tally

variable {counts : Counts}

/-- An item that is completed is one less to come. -/
theorem item (h : Tally counts part (k + 1) m)
    (hm : ∀ q, m'.itemCount q = m.itemCount q + if q = part then 1 else 0) :
    Tally counts part k m' := by
  refine ⟨h.counted, fun q => ?_⟩
  rw [← h.total q, hm q]
  split
  · rw [Nat.add_right_comm, Nat.add_assoc]
  · rfl

/-- A module has no item yet when its definitions are counted. -/
theorem opened (n : Nat) :
    Tally (Function.update (fun _ => none) .definitions (some n)) .definitions n {} := by
  constructor
  · intro q
    cases q <;> simp [Section.position]
  · intro q
    cases q <;> simp [Module.itemCount_empty]

/-- A count opens its section, in which there is no item yet. -/
theorem count (h : Tally counts part 0 m) (hpart : part ≠ .instructions) (n : Nat) :
    Tally (Function.update counts part.next (some n)) part.next n m := by
  have hnext := Section.position_next hpart
  have hitems (q : Section) : m.itemCount q = (counts q).getD 0 := by
    rw [← h.total q, ite_self, Nat.add_zero]
  constructor
  · intro q
    by_cases hq : q = part.next
    · rw [hq, Function.update_self]
      exact iff_of_true rfl (Nat.le_refl _)
    · have hne : q.position ≠ part.next.position := fun he => hq (Section.position_inj.1 he)
      rw [Function.update_of_ne hq, h.counted q]
      omega
  · intro q
    by_cases hq : q = part.next
    · subst hq
      have hnone : counts part.next = none := by
        rw [← Option.not_isSome_iff_eq_none, h.counted, hnext]
        exact Nat.not_succ_le_self _
      rw [Function.update_self, if_pos rfl, hitems, hnone]
      exact Nat.zero_add n
    · rw [Function.update_of_ne hq, if_neg hq, Nat.add_zero]
      exact hitems q

/-- Behind the instructions every section has as many items as were declared. -/
theorem complete (h : Tally counts .instructions 0 m) (q : Section) :
    counts q = some (m.itemCount q) := by
  have hle : q.position ≤ Section.instructions.position := by cases q <;> decide
  obtain ⟨n, hn⟩ := Option.isSome_iff_exists.1 ((h.counted q).2 hle)
  have htotal := h.total q
  rw [hn, ite_self, Nat.add_zero] at htotal
  rw [hn, htotal]
  rfl

end Tally

/-! ### The history beside a reader -/

/-- What has been read so far and a reader does not keep. -/
structure History where
  /-- The counts of the current module's sections. -/
  counts : Counts := fun _ => none
  /-- The modules before the current one, as they were when that one was opened, with the counts of
  their sections. -/
  closed : List (Module × Counts) := []

namespace History

/-- The history after one more token: a count is noted, and one of definitions opens a module. -/
def after (h : History) (r : Reading) (t : Token) : History :=
  if r.state.role = .count then
    if r.state.part = .definitions then
      ⟨Function.update (fun _ => none) .definitions (some (Numeral.value t.chars)),
        h.closed ++ r.current.toList.map fun m => (m, h.counts)⟩
    else
      { h with counts :=
          Function.update h.counts r.state.part (some (Numeral.value t.chars)) }
  else h

/-- The history behind a list of tokens, up to the first failure. -/
def run (settings : Settings) : History → Reading → List Token → History
  | h, _, []      => h
  | h, r, t :: ts =>
    match r.step settings t with
    | .ok r'   => run settings (h.after r t) r' ts
    | .error _ => h

theorem after_of_ne {h : History} (hr : r.state.remaining ≠ 0) : h.after r t = h :=
  if_neg fun hrole => hr (State.role_eq_count.1 hrole)

theorem after_start {h : History} : h.after {} t =
    ⟨Function.update (fun _ => none) .definitions (some (Numeral.value t.chars)), h.closed⟩ :=
  congrArg (History.mk _) (List.append_nil h.closed)

theorem after_due_zero {h : History} (hpart : part ≠ .instructions) :
    h.after ⟨due part 0, some m, st⟩ t =
      ⟨Function.update h.counts part.next (some (Numeral.value t.chars)), h.closed⟩ := by
  cases part with
  | definitions => rfl
  | uses => rfl
  | instructions => exact absurd rfl hpart

theorem run_cons {h : History} (hs : r.step settings t = .ok r') :
    h.run settings r (t :: ts) = (h.after r t).run settings r' ts := by
  rw [run, hs]

/-- The store holds the modules before the current one, and each of them has as many items in every
section as were declared. -/
structure Closes (h : History) (st : Store) : Prop where
  declared : ∀ e ∈ h.closed, ∀ q, e.2 q = some (e.1.itemCount q)
  placed : st = Store.empty.appendAll (h.closed.map Prod.fst)

end History

/-- The counts of the history agree with what the reader holds. -/
structure Tallied (h : History) (r : Reading) : Prop where
  counted : ∀ q, (h.counts q).isSome ↔ r.HasCounted q
  total : ∀ q, (r.filling.itemCount q : Int) + r.state.itemsDue q = ((h.counts q).getD 0 : Nat)
  closes : h.Closes r.store

variable {h : History}

theorem tallied_start : Tallied {} {} where
  counted q := by cases q <;> simp [HasCounted]
  total q := by cases q <;> rfl
  closes := ⟨fun _ he => absurd he List.not_mem_nil, rfl⟩

/-- In a section with `k` items due. -/
theorem tallied_iff (hcounted : ∀ q, r.HasCounted q ↔ q.position ≤ part.position)
    (hdue : ∀ q, r.state.itemsDue q = if q = part then (k : Int) else 0) :
    Tallied h r ↔ Tally h.counts part k r.filling ∧ h.Closes r.store := by
  have htotal (q : Section) (c : Nat) :
      (r.filling.itemCount q : Int) + r.state.itemsDue q = c ↔
        r.filling.itemCount q + (if q = part then k else 0) = c := by
    rw [hdue]
    split <;> omega
  constructor
  · intro ht
    exact ⟨⟨fun q => (ht.counted q).trans (hcounted q), fun q => (htotal q _).1 (ht.total q)⟩,
      ht.closes⟩
  · rintro ⟨ht, hc⟩
    exact ⟨fun q => (ht.counted q).trans (hcounted q).symm, fun q => (htotal q _).2 (ht.total q),
      hc⟩

theorem tallied_due :
    Tallied h ⟨due part k, some m, st⟩ ↔ Tally h.counts part k m ∧ h.Closes st :=
  tallied_iff hasCounted_due itemsDue_due

theorem tallied_half (hpart : part.tokensPerItem = 2) :
    Tallied h ⟨half part k first, some m, st⟩ ↔ Tally h.counts part (k + 1) m ∧ h.Closes st :=
  tallied_iff hasCounted_half (itemsDue_half hpart)

/-- The current module has all its sections when the next one is opened. -/
theorem History.Closes.module (hc : h.Closes st) (hm : Tally h.counts .instructions 0 m)
    (counts : Counts) : History.Closes ⟨counts, h.closed ++ [(m, h.counts)]⟩ (st.append m) := by
  constructor
  · intro e he q
    rcases List.mem_append.1 he with he | he
    · exact hc.declared e he q
    · obtain rfl := List.mem_singleton.1 he
      exact hm.complete q
  · rw [hc.placed, List.map_append, Store.appendAll, Store.appendAll, List.foldl_append]
    rfl

/-- **Each step keeps the tally.** -/
theorem Tallied.step (ht : Tallied h r) (hs : Transition settings t r r') :
    Tallied (h.after r t) r' := by
  cases hs with
  | first n hn =>
    obtain ⟨-, -, -, rfl⟩ := hn
    rw [History.after_start]
    exact tallied_due.2 ⟨.opened _, ht.closes.declared, ht.closes.placed⟩
  | module n m st hn =>
    obtain ⟨-, -, -, rfl⟩ := hn
    obtain ⟨hm, hc⟩ := tallied_due.1 ht
    exact tallied_due.2 ⟨.opened _, hc.module hm _⟩
  | count part n m st hpart hn =>
    obtain ⟨-, -, -, rfl⟩ := hn
    obtain ⟨hm, hc⟩ := tallied_due.1 ht
    rw [History.after_due_zero hpart]
    exact tallied_due.2 ⟨hm.count hpart _, hc.declared, hc.placed⟩
  | symbol k m st =>
    rw [History.after_of_ne (remaining_due_succ_ne_zero _ k)]
    exact (tallied_half rfl).2 (tallied_due.1 ht)
  | offset k n first m st hn =>
    obtain ⟨hm, hc⟩ := (tallied_half rfl).1 ht
    rw [History.after_of_ne (remaining_half_ne_zero _ k first)]
    exact tallied_due.2 ⟨hm.item (m.itemCount_addDefinition · _), hc⟩
  | use k m st =>
    obtain ⟨hm, hc⟩ := tallied_due.1 ht
    rw [History.after_of_ne (remaining_due_succ_ne_zero _ k)]
    exact tallied_due.2 ⟨hm.item (m.itemCount_addUse · _), hc⟩
  | type k kind m st hk =>
    rw [History.after_of_ne (remaining_due_succ_ne_zero _ k)]
    exact (tallied_half rfl).2 (tallied_due.1 ht)
  | word k opcode address kind first m st hk hw =>
    obtain ⟨hm, hc⟩ := (tallied_half rfl).1 ht
    rw [History.after_of_ne (remaining_half_ne_zero _ k first)]
    exact tallied_due.2 ⟨hm.item (m.itemCount_addInstruction · _), hc⟩

/-! ### The invariant -/

/-- What holds of a reader behind the tokens `ts`, with its history. -/
structure Invariant (ts : List Token) (h : History) (r : Reading) : Prop where
  /-- There is a current module as soon as a token has been read. -/
  opened : r.current.isSome ↔ ts ≠ []
  remaining_nonneg : 0 ≤ r.state.remaining
  /-- A token is pending within a pair. -/
  pending_iff : r.state.pending.isSome ↔
    r.state.role = .definitionLocation ∨ r.state.role = .instructionWord
  /-- The pending token is the one that was read last. -/
  pending_last : ∀ t, r.state.pending = some t → ts.getLast? = some t
  /-- Where a word is due the pending token can be classified once more. -/
  pending_classified : r.state.role = .instructionWord →
    ∃ first c, r.state.pending = some first ∧ first.chars.head? = some c ∧
      c ∈ ['I', 'A', 'R', 'E'] ∧ ∀ t i, ∃ kind, classification (r.firstOfPair t) i = .ok kind
  /-- The history has the counts of the sections that have been begun. -/
  counted : ∀ q, (h.counts q).isSome ↔ r.HasCounted q
  /-- The items of a section and those that are due make up its count. -/
  total : ∀ q n, h.counts q = some n → (r.filling.itemCount q : Int) + r.state.itemsDue q = n
  /-- A section that is not being read any more has as many items as were declared. -/
  left : ∀ q n, h.counts q = some n → q ≠ r.state.part ∨ r.state.remaining = 0 →
    r.filling.itemCount q = n
  /-- A section that has not been begun has no items. -/
  ahead : ∀ q, h.counts q = none → r.filling.itemCount q = 0
  /-- The modules before the current one have in every section as many items as were declared. -/
  declared : ∀ e ∈ h.closed, ∀ q, e.2 q = some (e.1.itemCount q)
  /-- The store holds the modules before the current one, each with its position as index and the
  number of instructions before it as start. -/
  placed : r.store = .ofModules (h.closed.map Prod.fst)

/-- The part of the invariant that is kept step by step; the rest follows from it. -/
structure Kept (ts : List Token) (h : History) (r : Reading) : Prop where
  regular : r.Regular
  tallied : Tallied h r
  opened : r.current.isSome ↔ ts ≠ []
  pending_last : ∀ t, r.state.pending = some t → ts.getLast? = some t

/-! ### What each step keeps -/

/-- After a step there is a current module. -/
theorem Transition.current_isSome (hs : Transition settings t r r') : r'.current.isSome := by
  cases hs <;> rfl

/-- After a step no token is pending but the one that was read. -/
theorem Transition.eq_of_pending (hs : Transition settings t r r')
    (hp : r'.state.pending = some first) : t = first := by
  cases hs with
  | symbol k m st => exact Option.some.inj hp
  | type k kind m st hk => exact Option.some.inj hp
  | _ =>
    rw [pending_due] at hp
    cases hp

/-- A module that has been placed stays as it is. -/
theorem Transition.store_isPrefix (hs : Transition settings t r r') :
    r.store.modules <+: r'.store.modules := by
  cases hs with
  | module n m st hn => exact List.prefix_append _ _
  | _ => exact List.prefix_rfl

theorem kept_start : Kept [] {} {} where
  regular := .start
  tallied := tallied_start
  opened := by decide
  pending_last _ hp := by cases hp

theorem Kept.step (hr : Kept ts h r) (hs : r.step settings t = .ok r') :
    Kept (ts ++ [t]) (h.after r t) r' := by
  have htrans := hr.regular.transition hs
  constructor
  · exact htrans.regular
  · exact hr.tallied.step htrans
  · exact iff_of_true htrans.current_isSome (List.concat_ne_nil t ts)
  · intro first hp
    rw [List.getLast?_concat, htrans.eq_of_pending hp]

/-- Behind all tokens that are read. -/
theorem Kept.run (hr : Kept ts h r) (hs : Reading.run settings r us = .ok r') :
    Kept (ts ++ us) (h.run settings r us) r' := by
  induction us generalizing ts h r with
  | nil =>
    cases hs
    rwa [List.append_nil]
  | cons u us ih =>
    obtain ⟨r₁, h₁, hs⟩ := run_cons.1 hs
    have hkept := ih (hr.step h₁) hs
    rwa [History.run_cons h₁, List.append_cons]

theorem Regular.store_isPrefix (hr : r.Regular) (hs : Reading.run settings r us = .ok r') :
    r.store.modules <+: r'.store.modules := by
  have hkept : r'.Regular ∧ r.store.modules <+: r'.store.modules := by
    refine foldlM_preserves (P := fun r' => r'.Regular ∧ r.store.modules <+: r'.store.modules)
      (fun r₁ u r₂ _ h₁ hstep => ?_) ⟨hr, List.prefix_rfl⟩ hs
    have htrans := h₁.1.transition hstep
    exact ⟨htrans.regular, h₁.2.trans htrans.store_isPrefix⟩
  exact hkept.2

/-! ### What follows from what is kept -/

theorem Regular.remaining_nonneg (hr : r.Regular) : 0 ≤ r.state.remaining := by
  cases hr with
  | start => exact Int.le_refl 0
  | due part k m st =>
    rw [remaining_due]
    exact Int.natCast_nonneg _
  | symbol k first m st => exact Int.le_of_lt (remaining_half_pos _ k first)
  | type k first kind m st hk => exact Int.le_of_lt (remaining_half_pos _ k first)

theorem Regular.pending_iff (hr : r.Regular) : r.state.pending.isSome ↔
    r.state.role = .definitionLocation ∨ r.state.role = .instructionWord := by
  cases hr with
  | start => decide
  | due part k m st =>
    rw [pending_due]
    exact iff_of_false Bool.false_ne_true (not_or.2 (role_due_ne part k))
  | symbol k first m st => exact iff_of_true rfl (.inl (role_half_definitions k first))
  | type k first kind m st hk => exact iff_of_true rfl (.inr (role_half_instructions k first))

theorem Regular.pending_classified (hr : r.Regular) (hrole : r.state.role = .instructionWord) :
    ∃ first c, r.state.pending = some first ∧ first.chars.head? = some c ∧
      c ∈ ['I', 'A', 'R', 'E'] ∧ ∀ t i, ∃ kind, classification (r.firstOfPair t) i = .ok kind := by
  cases hr with
  | start => cases hrole
  | due part k m st => exact absurd hrole (role_due_ne part k).2
  | symbol k first m st =>
    rw [role_half_definitions] at hrole
    cases hrole
  | type k first kind m st hk =>
    refine ⟨first, kind.letter, rfl, hk, ?_, fun t i => ⟨kind, classification_eq_ok.2 hk⟩⟩
    cases kind <;> decide

/-- No item is due where no token of the section is expected. -/
theorem State.itemsDue_eq_zero {s : State} {q : Section} (hq : q ≠ s.part ∨ s.remaining = 0) :
    s.itemsDue q = 0 := by
  unfold itemsDue
  split
  · next he =>
    rw [hq.resolve_left (not_not_intro he)]
    cases q <;> rfl
  · rfl

theorem Tallied.total_of_some (ht : Tallied h r) {q : Section} (hq : h.counts q = some n) :
    (r.filling.itemCount q : Int) + r.state.itemsDue q = n := by
  rw [ht.total q, hq]
  rfl

theorem Tallied.left (ht : Tallied h r) {q : Section} (hq : h.counts q = some n)
    (hleft : q ≠ r.state.part ∨ r.state.remaining = 0) : r.filling.itemCount q = n := by
  have htotal := ht.total_of_some hq
  rw [itemsDue_eq_zero hleft, Int.add_zero] at htotal
  exact Int.natCast_inj.1 htotal

theorem State.itemsDue_nonneg {s : State} (hs : 0 ≤ s.remaining) (q : Section) :
    0 ≤ s.itemsDue q := by
  unfold itemsDue
  split
  · have hpos := q.tokensPerItem_pos
    exact Int.ediv_nonneg (by omega) (by omega)
  · exact Int.le_refl 0

/-- A section without a count has neither items nor items that are due. -/
theorem Tallied.ahead (ht : Tallied h r) (hs : 0 ≤ r.state.remaining) {q : Section}
    (hq : h.counts q = none) : r.filling.itemCount q = 0 := by
  have hdue := itemsDue_nonneg hs q
  have htotal : (r.filling.itemCount q : Int) + r.state.itemsDue q = 0 := by
    rw [ht.total q, hq]
    rfl
  omega

theorem Kept.invariant (hr : Kept ts h r) : Invariant ts h r where
  opened := hr.opened
  remaining_nonneg := hr.regular.remaining_nonneg
  pending_iff := hr.regular.pending_iff
  pending_last := hr.pending_last
  pending_classified := hr.regular.pending_classified
  counted := hr.tallied.counted
  total _ _ hq := hr.tallied.total_of_some hq
  left _ _ hq hleft := hr.tallied.left hq hleft
  ahead _ hq := hr.tallied.ahead hr.regular.remaining_nonneg hq
  declared := hr.tallied.closes.declared
  placed := hr.tallied.closes.placed.trans (Store.appendAll_empty _)

/-- **The invariant of a reader.**  It holds behind any tokens that are read one by one, and behind
any tokens before them the store has been a part of what it is now. -/
theorem run_invariant (hs : run settings {} ts = .ok r) :
    Invariant ts (History.run settings {} {} ts) r ∧
      ∀ pre post, ts = pre ++ post →
        ∃ r₀, run settings {} pre = .ok r₀ ∧ r₀.store.modules <+: r.store.modules := by
  constructor
  · exact (kept_start.run hs).invariant
  · rintro pre post rfl
    rw [run, List.foldlM_append, bind_eq_ok] at hs
    obtain ⟨r₀, hpre, hpost⟩ := hs
    exact ⟨r₀, hpre, (regular_run .start hpre).store_isPrefix hpost⟩

/-- Within the first definition of a second module. -/
theorem run_invariant_secondModule :
    let ts : List Token :=
      [⟨"0", 0, ⟨"-", 1, 1⟩⟩, ⟨"0", 1, ⟨"-", 1, 3⟩⟩, ⟨"1", 2, ⟨"-", 1, 5⟩⟩,
        ⟨"R", 3, ⟨"-", 1, 7⟩⟩, ⟨"1000", 4, ⟨"-", 1, 9⟩⟩, ⟨"2", 5, ⟨"-", 2, 1⟩⟩,
        ⟨"a", 6, ⟨"-", 2, 3⟩⟩]
    ∃ r, run {} {} ts = .ok r ∧ r.state.remaining = 3 ∧ r.store.count = 1 ∧
      Invariant ts (History.run {} {} {} ts) r := by
  intro ts
  have hs : ∃ r, run {} {} ts = .ok r ∧ r.state.remaining = 3 ∧ r.store.count = 1 :=
    ⟨_, rfl, rfl, rfl⟩
  obtain ⟨r, hs, hremaining, hcount⟩ := hs
  exact ⟨r, hs, hremaining, hcount, (run_invariant hs).1⟩

end Reading

end Linkage
