import Linkage.Pass.Outcome
import Linkage.Proofs.SymbolTable
import Mathlib.Data.List.Induction

/-!
# Symbol table — what a sequence of calls leaves in it

A table is changed by two calls, a definition and the freeze.  `SymbolTable.perform` makes one call;
its outcome has the table reached beside the result, so a call that is refused is a step as well.
`after` makes many calls, and `accepted` are the entries of those definitions among them that were
not refused.

**After any calls a table is that of the accepted entries** (`after_eq`), frozen if one of the calls
was the freeze.  So what it shows is a matter of the entries alone (`SymbolTable.Shows`): a name
resolves to the first or the last of its entries, and the names stand in the order of their first
entry, also where a later entry has taken the first one's place (`names_ofEntries`).
-/

namespace Linkage

namespace SymbolTable

/-- A call on a symbol table. -/
inductive Call where
  | define (entry : Entry) (location : Option Location)
  | freeze
  deriving DecidableEq, Repr

/-- Makes a call on a table; a definition that is accepted returns its entry. -/
def perform (t : SymbolTable) : Call → Outcome SymbolTable (Option Entry)
  | .define e location =>
    match t.define e location with
    | .ok t'   => ⟨t', t.defineEvents e, .ok (some e)⟩
    | .error f => ⟨t, [], .error f⟩
  | .freeze => ⟨t.freeze, [], .ok none⟩

/-- The table after some calls, whatever became of each. -/
def after (t : SymbolTable) (calls : List Call) : SymbolTable :=
  calls.foldl (fun t c => (t.perform c).reached) t

/-- The entries of the definitions that are accepted, in the order of the calls. -/
def accepted (t : SymbolTable) : List Call → List Entry
  | []         => []
  | c :: calls =>
    (t.perform c).result.toOption.join.toList ++ accepted (t.perform c).reached calls

/-- What a table shows that has accepted the entries `es`, in this order. -/
structure Shows (t : SymbolTable) (policy : DuplicatePolicy) (es : List Entry) : Prop where
  entries : t.entries = es
  /-- A name resolves to the first of its entries, or to the last one where the latest holds. -/
  lookup : ∀ name, t.lookup name =
    if policy = .last then (entriesNamed name es).getLast? else (entriesNamed name es).head?
  /-- A name is contained that has an entry. -/
  contains : ∀ name, t.contains name = true ↔ name ∈ es.map Entry.name
  /-- The addresses are those of the entries that the names resolve to. -/
  address : ∀ name, t.addresses.lookup name = (t.lookup name).map Entry.address
  /-- The names are distinct and stand in the order of their first entry. -/
  names : t.addresses.map Prod.fst = (es.map Entry.name).eraseDups
  /-- Where a repeated definition is an error no two entries have the same name. -/
  distinct : policy = .error → (es.map Entry.name).Nodup
  /-- The repeated names stand in the order of their first entry. -/
  duplicates : t.duplicates =
    (es.map Entry.name).eraseDups.filter fun name => 2 ≤ (es.map Entry.name).count name

variable {t : SymbolTable} {e : Entry} {es : List Entry} {p : DuplicatePolicy} {c : Call}
  {calls : List Call} {location : Option Location} {f : Failure}

/-! ### One call -/

/-- A call that is refused leaves the table as it was. -/
theorem reached_perform_of_error (h : (t.perform c).result = .error f) :
    (t.perform c).reached = t := by
  cases c with
  | define e location =>
    cases hd : t.define e location with
    | ok t' => simp only [perform, hd, reduceCtorEq] at h
    | error f => simp only [perform, hd]
  | freeze => cases h

theorem perform_freeze (t : SymbolTable) : t.perform .freeze = ⟨t.freeze, [], .ok none⟩ := rfl

theorem perform_frozen (h : t.frozen = true) (e : Entry) (location : Option Location) :
    t.perform (.define e location) = ⟨t, [], .error (.misuse (.frozenTable e.name))⟩ := by
  have hd : t.define e location = .error (.misuse (.frozenTable e.name)) := if_pos h
  rw [perform, hd]

/-- Whether an open table takes an entry depends on what the name resolves to. -/
theorem perform_open (hp : t.policy = .known p) (hf : t.frozen = false) (e : Entry)
    (location : Option Location) :
    t.perform (.define e location) =
      match (if p = .error then t.lookup e.name else none) with
      | none     => ⟨t.enter e, t.defineEvents e, .ok (some e)⟩
      | some old => ⟨t, [], .error (.link ⟨.duplicate e.name old.moduleIndex, location,
          e.moduleIndex⟩)⟩ := by
  cases hl : (if p = .error then t.lookup e.name else none) with
  | none =>
    have hd : t.define e location = .ok (t.enter e) := by
      refine (define_eq_ok hp hf).2 ⟨fun herr => ?_, rfl⟩
      cases hp.symm.trans herr
      exact (if_pos rfl).symm.trans hl
    rw [perform, hd]
  | some old =>
    split at hl
    · next herr =>
      have hd : t.define e location =
          .error (.link ⟨.duplicate e.name old.moduleIndex, location, e.moduleIndex⟩) :=
        (define_eq_error hp hf).2 ⟨herr ▸ hp, old, hl, rfl⟩
      rw [perform, hd]
    · cases hl

/-! ### Many calls -/

@[simp] theorem after_cons (t : SymbolTable) (c : Call) (calls : List Call) :
    t.after (c :: calls) = (t.perform c).reached.after calls := rfl

/-- **A frozen table stays as it is.** -/
theorem after_frozen (h : t.frozen = true) (calls : List Call) :
    t.after calls = t ∧ t.accepted calls = [] := by
  induction calls with
  | nil => exact ⟨rfl, rfl⟩
  | cons c calls ih =>
    rw [after_cons, accepted]
    cases c with
    | define e location => rw [perform_frozen h]; exact ih
    | freeze =>
      have ht : t.freeze = t := by rw [freeze, ← h]
      rw [perform_freeze, ht]
      exact ih

/-- **After any calls an open table** has the entries that were accepted besides its own, and is
frozen if one of the calls was the freeze. -/
theorem after_eq (hp : t.policy = .known p) (hf : t.frozen = false) (calls : List Call) :
    t.after calls =
      if .freeze ∈ calls then (t.enterAll (t.accepted calls)).freeze
      else t.enterAll (t.accepted calls) := by
  -- by induction on the calls: the first one enters its entry, changes nothing, or is the freeze
  induction calls generalizing t with
  | nil => rfl
  | cons c calls ih =>
    rw [after_cons, accepted]
    cases c with
    | define e location =>
      have hmem : Call.freeze ∈ Call.define e location :: calls ↔ Call.freeze ∈ calls := by simp
      rw [perform_open hp hf]
      simp only [hmem]
      cases (if p = .error then t.lookup e.name else none) with
      | none => exact ih (t := t.enter e) hp hf
      | some old => exact ih hp hf
    | freeze =>
      obtain ⟨hafter, haccepted⟩ := after_frozen (t := t.freeze) rfl calls
      rw [perform_freeze, hafter, haccepted, if_pos List.mem_cons_self]
      rfl

/-- Under `error` the entries that an open table accepts repeat no name. -/
theorem admits_accepted (hp : t.policy = .known p) (hf : t.frozen = false) (calls : List Call) :
    t.Admits (t.accepted calls) := by
  induction calls generalizing t with
  | nil => exact admits_nil t
  | cons c calls ih =>
    rw [accepted]
    cases c with
    | define e location =>
      rw [perform_open hp hf]
      cases hl : (if p = .error then t.lookup e.name else none) with
      | none =>
        refine admits_cons.2 ⟨fun herr => ?_, ih (t := t.enter e) hp hf⟩
        cases hp.symm.trans herr
        exact (if_pos rfl).symm.trans hl
      | some old => exact ih hp hf
    | freeze =>
      rw [perform_freeze, (after_frozen (t := t.freeze) rfl calls).2]
      exact admits_nil t

/-! ### What a table shows -/

theorem contains_iff (t : SymbolTable) (name : String) :
    t.contains name = true ↔ name ∈ t.names := by
  rw [contains, lookup, List.find?_isSome, names, List.mem_map]
  simp

theorem names_enter (t : SymbolTable) (e : Entry) :
    (t.enter e).names = if e.name ∈ t.names then t.names else t.names ++ [e.name] := by
  have hmap : (t.resolved.map fun old => if old.name == e.name then e else old).map Entry.name =
      t.resolved.map Entry.name := by
    rw [List.map_map]
    refine List.map_congr_left fun old _ => ?_
    show (if old.name == e.name then e else old).name = old.name
    split
    · next h => exact (eq_of_beq h).symm
    · rfl
  have hnames : (t.enter e).names = (t.resolvedWith e).map Entry.name := rfl
  rw [hnames, resolvedWith]
  by_cases hc : e.name ∈ t.names
  · rw [if_pos hc, if_pos ((t.contains_iff e.name).2 hc)]
    split
    · exact hmap
    · rfl
  · rw [if_neg hc, if_neg (fun h => hc ((t.contains_iff e.name).1 h)), List.map_append]
    rfl

theorem names_enterAll (t : SymbolTable) (es : List Entry) :
    (t.enterAll es).names = t.names ++ ((es.map Entry.name).removeAll t.names).eraseDups := by
  induction es generalizing t with
  | nil => rw [enterAll_nil, List.map_nil]; exact (List.append_nil _).symm
  | cons e es ih =>
    rw [enterAll_cons, ih, names_enter, List.map_cons]
    by_cases hc : e.name ∈ t.names
    · rw [if_pos hc, List.removeAll, List.removeAll, List.filter_cons_of_neg (by simp [hc])]
    · rw [if_neg hc, List.removeAll, List.removeAll, List.filter_cons_of_pos (by simp [hc]),
        List.eraseDups_cons, List.append_assoc, List.filter_filter]
      refine congrArg (fun l => t.names ++ e.name :: List.eraseDups l) ?_
      refine List.filter_congr fun name _ => ?_
      by_cases h : name = e.name
      · simp [h]
      · simp [h]

/-- **The names stand in the order of their first entry.** -/
theorem names_ofEntries (policy : PolicySetting) (es : List Entry) :
    (ofEntries policy es).names = (es.map Entry.name).eraseDups := by
  have h := names_enterAll (empty policy) es
  have hnil : (es.map Entry.name).removeAll [] = es.map Entry.name := by simp [List.removeAll]
  exact h.trans (congrArg List.eraseDups hnil)

/-- The address of a name is that of the entry it resolves to. -/
theorem lookup_addresses (t : SymbolTable) (name : String) :
    t.addresses.lookup name = (t.lookup name).map Entry.address := by
  unfold addresses lookup
  induction t.resolved with
  | nil => rfl
  | cons e es ih =>
    rw [List.map_cons, List.lookup_cons, List.find?_cons, ih, Bool.beq_comm]
    cases e.name == name <;> rfl

/-- Counting the names one by one gives each its number, names in the order of their first
occurrence. -/
theorem foldl_counted (names : List String) :
    names.foldl counted [] = names.eraseDups.map fun name => (name, names.count name) := by
  induction names using List.reverseRecOn with
  | nil => rfl
  | append_singleton names name ih =>
    have hany : (names.eraseDups.map fun n => (n, names.count n)).any (fun c => c.1 == name) =
        decide (name ∈ names) := by
      rw [Bool.eq_iff_iff, decide_eq_true_iff, List.any_map, List.any_eq_true]
      simp
    rw [List.foldl_append, List.foldl_cons, List.foldl_nil, ih, counted, hany,
      List.eraseDups_append]
    by_cases h : name ∈ names
    · have hnone : [name].removeAll names = [] := by simp [List.removeAll, h]
      rw [if_pos (decide_eq_true h), hnone, List.eraseDups_nil, List.append_nil, List.map_map]
      refine List.map_congr_left fun n _ => ?_
      by_cases hn : n = name
      · simp [hn]
      · simp [hn, Ne.symm hn]
    · have hnew : [name].removeAll names = [name] := by simp [List.removeAll, h]
      rw [if_neg (by simpa using h), hnew, List.map_append]
      refine congrArg₂ (· ++ ·) (List.map_congr_left fun n hn => ?_) ?_
      · have hne : name ≠ n := fun he => h (he ▸ List.mem_eraseDups.1 hn)
        simp [hne]
      · simp [List.eraseDups_cons, List.count_eq_zero.2 h]

/-- The repeated names are those that stand more than once among the names of the entries. -/
theorem duplicates_eq (t : SymbolTable) :
    t.duplicates = (t.entries.map Entry.name).eraseDups.filter fun name =>
      2 ≤ (t.entries.map Entry.name).count name := by
  rw [duplicates, foldl_counted, List.filter_map, List.map_map]
  exact List.map_id _

/-- The table of some entries shows them. -/
theorem shows_ofEntries (h : p = .error → (es.map Entry.name).Nodup) :
    (ofEntries p es).Shows p es where
  entries := entries_ofEntries p es
  lookup name := by
    rw [lookup_ofEntries, PolicySetting.choose]
    simp only [PolicySetting.known.injEq]
  contains name := by rw [contains_iff, names_ofEntries, List.mem_eraseDups]
  address := lookup_addresses _
  names := by rw [addresses, List.map_map, ← names_ofEntries p es]; rfl
  distinct := h
  duplicates := by rw [duplicates_eq, entries_ofEntries]

/-- The freeze changes nothing of what a table shows. -/
theorem Shows.freeze (h : t.Shows p es) : t.freeze.Shows p es :=
  ⟨h.entries, h.lookup, h.contains, h.address, h.names, h.distinct, h.duplicates⟩

/-- **After any calls a new table shows the definitions that were accepted.**  A definition is
refused when the freeze was among the calls, and under `error` when one of its name has been
accepted; a call that is refused leaves the table as it was, and after the freeze so does every
call. -/
theorem after_calls (p : DuplicatePolicy) (calls : List Call) :
    ((empty p).after calls).Shows p ((empty p).accepted calls) ∧
    (∀ e location, (((empty p).after calls).perform (.define e location)).result =
      if .freeze ∈ calls then .error (.misuse (.frozenTable e.name))
      else
        match (if p = .error then ((empty p).accepted calls).find? (·.name == e.name)
          else none) with
        | none     => .ok (some e)
        | some old =>
          .error (.link ⟨.duplicate e.name old.moduleIndex, location, e.moduleIndex⟩)) ∧
    (∀ c f, (((empty p).after calls).perform c).result = .error f →
      (((empty p).after calls).perform c).reached = (empty p).after calls) ∧
    (.freeze ∈ calls → ∀ more, (empty p).after (calls ++ more) = (empty p).after calls) := by
  have hafter := after_eq (t := empty p) rfl rfl calls
  have hopen : ((empty p).enterAll ((empty p).accepted calls)).Shows p ((empty p).accepted calls) :=
    shows_ofEntries fun herr =>
      admits_empty.1 (admits_accepted rfl rfl calls) (congrArg PolicySetting.known herr)
  have hshows : ((empty p).after calls).Shows p ((empty p).accepted calls) := by
    rw [hafter]
    split
    · exact hopen.freeze
    · exact hopen
  have hpolicy : ((empty p).after calls).policy = .known p := by
    rw [hafter]
    split <;> exact policy_enterAll _ _
  have hfrozen : ((empty p).after calls).frozen = decide (.freeze ∈ calls) := by
    rw [hafter]
    split
    · next h => exact (decide_eq_true h).symm
    · next h => exact (frozen_enterAll _ _).trans (decide_eq_false h).symm
  refine ⟨hshows, fun e location => ?_, fun c f => reached_perform_of_error, fun h more => ?_⟩
  · split
    · next h => rw [perform_frozen (hfrozen.trans (decide_eq_true h))]
    · next h =>
      rw [perform_open hpolicy (hfrozen.trans (decide_eq_false h)), hshows.lookup]
      by_cases hp : p = .error
      · subst hp
        rw [if_pos rfl, if_pos rfl, if_neg (by decide), entriesNamed, List.head?_filter]
        cases ((empty DuplicatePolicy.error).accepted calls).find? (·.name == e.name) <;> rfl
      · rw [if_neg hp, if_neg hp]
  · rw [after, List.foldl_append]
    exact (after_frozen (hfrozen.trans (decide_eq_true h)) more).1

/-- Under `error` the second definition of a symbol is refused, and so is any after the freeze. -/
theorem after_calls_repeated :
    let x : Entry := ⟨"x", 0, 0⟩
    let calls : List Call := [.define x none, .define ⟨"x", 7, 1⟩ none, .freeze]
    let t : SymbolTable := empty DuplicatePolicy.error
    .freeze ∈ calls ∧ (t.after calls).entries = [x] ∧
      t.after (calls ++ [.define ⟨"y", 1, 1⟩ none]) = t.after calls ∧
        ((t.after [.define x none]).perform (.define ⟨"x", 7, 1⟩ none)).reached =
          t.after [.define x none] := by
  intro x calls t
  have hmem : Call.freeze ∈ calls := by decide
  obtain ⟨hshows, -, -, hfrozen⟩ := after_calls .error calls
  refine ⟨hmem, hshows.entries, hfrozen hmem _, ?_⟩
  exact (after_calls .error [.define x none]).2.2.1 _ _ rfl

end SymbolTable

end Linkage
