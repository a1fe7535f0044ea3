import Linkage.SymbolTable

/-!
# Symbol table — what a table resolves its names to

`SymbolTable.enter` is the table with one more entry, and `define` gives it or refuses it
(`define_eq_ok`, `define_eq_error`).  `enterAll` takes many entries, `ofEntries` takes them into an
empty table.

* `lookup_ofEntries`: a name resolves to the first or the last of its entries, as the policy
  chooses.
* `SymbolTable.Admits`: what repeats among the entries is refused under `error` only.
-/

namespace Linkage

/-- Those of the entries that have the name. -/
def entriesNamed (name : String) (es : List Entry) : List Entry := es.filter (·.name == name)

theorem entriesNamed_append (name : String) (es es' : List Entry) :
    entriesNamed name (es ++ es') = entriesNamed name es ++ entriesNamed name es' :=
  List.filter_append ..

theorem entriesNamed_self (e : Entry) : entriesNamed e.name [e] = [e] := by
  simp [entriesNamed]

theorem entriesNamed_of_ne {e : Entry} {name : String} (h : e.name ≠ name) :
    entriesNamed name [e] = [] := by
  simp [entriesNamed, h]

theorem entriesNamed_map {f : Entry → Entry} (hf : ∀ e, (f e).name = e.name) (name : String)
    (es : List Entry) : entriesNamed name (es.map f) = (entriesNamed name es).map f := by
  rw [entriesNamed, List.filter_map, entriesNamed]
  simp only [Function.comp_def, hf]

theorem entriesNamed_eq_nil {name : String} {es : List Entry} :
    entriesNamed name es = [] ↔ ∀ e ∈ es, e.name ≠ name := by
  simp [entriesNamed, List.filter_eq_nil_iff]

/-- The one of the entries of a name, in the order of their definition, that the name resolves
to. -/
def PolicySetting.choose (p : PolicySetting) (es : List Entry) : Option Entry :=
  if p = .known .last then es.getLast? else es.head?

namespace PolicySetting

variable {p : PolicySetting} {es : List Entry} {e : Entry}

theorem isKnown_iff (p : PolicySetting) : p.isKnown = true ↔ ∃ policy, p = .known policy := by
  cases p with
  | known policy => exact iff_of_true rfl ⟨policy, rfl⟩
  | unknown value => exact iff_of_false Bool.false_ne_true nofun

theorem choose_toList (p : PolicySetting) (o : Option Entry) : p.choose o.toList = o := by
  unfold choose
  cases o with
  | none => split <;> rfl
  | some e => split <;> rfl

/-- Entries that have been chosen among can stand for all of them. -/
theorem choose_append (p : PolicySetting) (es es' : List Entry) :
    p.choose ((p.choose es).toList ++ es') = p.choose (es ++ es') := by
  unfold choose
  split
  · rw [List.getLast?_append, List.getLast?_append]
    cases es.getLast? <;> rfl
  · rw [List.head?_append, List.head?_append]
    cases es.head? <;> rfl

/-- Where the first entry holds, later entries do not change what has been chosen. -/
theorem choose_append_of_ne_nil (hp : p ≠ .known .last) (h : es ≠ []) (es' : List Entry) :
    p.choose (es ++ es') = p.choose es := by
  rw [choose, choose, if_neg hp, if_neg hp, List.head?_append]
  cases es with
  | nil => exact absurd rfl h
  | cons e es => rfl

theorem mem_of_choose (h : p.choose es = some e) : e ∈ es := by
  unfold choose at h
  split at h
  · exact List.mem_of_getLast? h
  · exact List.mem_of_head? h

theorem choose_eq_none : p.choose es = none ↔ es = [] := by
  unfold choose
  split
  · exact List.getLast?_eq_none_iff
  · exact List.head?_eq_none_iff

theorem choose_map (p : PolicySetting) (f : Entry → Entry) (es : List Entry) :
    p.choose (es.map f) = (p.choose es).map f := by
  unfold choose
  split
  · exact List.getLast?_map
  · exact List.head?_map

end PolicySetting

namespace SymbolTable

variable {t t' : SymbolTable} {e : Entry} {es : List Entry} {location : Option Location}

/-! ### Entering -/

/-- The table with one more entry. -/
def enter (t : SymbolTable) (e : Entry) : SymbolTable :=
  { t with entries := t.entries ++ [e], resolved := t.resolvedWith e }

/-- The table with some more entries. -/
def enterAll (t : SymbolTable) (es : List Entry) : SymbolTable := es.foldl enter t

/-- The table of some entries. -/
def ofEntries (policy : PolicySetting) (es : List Entry) : SymbolTable := (empty policy).enterAll es

@[simp] theorem enterAll_nil (t : SymbolTable) : t.enterAll [] = t := rfl

@[simp] theorem enterAll_cons (t : SymbolTable) (e : Entry) (es : List Entry) :
    t.enterAll (e :: es) = (t.enter e).enterAll es := rfl

@[simp] theorem policy_enterAll (t : SymbolTable) (es : List Entry) :
    (t.enterAll es).policy = t.policy := by
  induction es generalizing t with
  | nil => rfl
  | cons e es ih => exact ih (t.enter e)

@[simp] theorem frozen_enterAll (t : SymbolTable) (es : List Entry) :
    (t.enterAll es).frozen = t.frozen := by
  induction es generalizing t with
  | nil => rfl
  | cons e es ih => exact ih (t.enter e)

theorem entries_enterAll (t : SymbolTable) (es : List Entry) :
    (t.enterAll es).entries = t.entries ++ es := by
  induction es generalizing t with
  | nil => exact (List.append_nil _).symm
  | cons e es ih => rw [enterAll_cons, ih, enter, List.append_assoc, List.singleton_append]

theorem entries_ofEntries (policy : PolicySetting) (es : List Entry) :
    (ofEntries policy es).entries = es :=
  entries_enterAll (empty policy) es

/-! ### What names resolve to -/

theorem name_of_lookup {name : String} (h : t.lookup name = some e) : e.name = name := by
  unfold lookup at h
  simpa using List.find?_some h

/-- Where the entries of a name are replaced by one of that name, no other name resolves
differently. -/
theorem find?_replaced (l : List Entry) (e : Entry) (name : String) :
    (l.map fun old => if old.name == e.name then e else old).find? (·.name == name) =
      (l.find? (·.name == name)).map fun old => if old.name == e.name then e else old := by
  rw [List.find?_map]
  congr 2
  funext old
  show ((if old.name == e.name then e else old).name == name) = (old.name == name)
  split
  · next h => rw [eq_of_beq h]
  · rfl

/-- After one more entry a name resolves to what the policy chooses of the old entry and the new. -/
theorem lookup_enter (t : SymbolTable) (e : Entry) (name : String) :
    (t.enter e).lookup name =
      t.policy.choose ((t.lookup name).toList ++ entriesNamed name [e]) := by
  have hl : (t.enter e).lookup name = (t.resolvedWith e).find? (·.name == name) := rfl
  rw [hl, resolvedWith]
  cases hc : t.lookup e.name with
  | none =>
    -- the name is new, and there is nothing to choose from
    have hcon : t.contains e.name = false := by rw [contains, hc]; rfl
    rw [hcon, if_neg Bool.false_ne_true, List.find?_append]
    by_cases h : e.name = name
    · subst h
      rw [← lookup, hc, entriesNamed_self, List.find?_singleton, if_pos (beq_self_eq_true _)]
      exact (t.policy.choose_toList (some e)).symm
    · rw [entriesNamed_of_ne h, List.append_nil, t.policy.choose_toList, List.find?_singleton,
        if_neg (fun hb => h (eq_of_beq hb)), Option.or_none]
      rfl
  | some old =>
    have hcon : t.contains e.name = true := by rw [contains, hc]; rfl
    rw [hcon, if_pos rfl]
    by_cases h : e.name = name
    · subst h
      rw [hc, entriesNamed_self, PolicySetting.choose]
      split
      · next hp =>
        rw [find?_replaced, ← lookup, hc, Option.map_some, name_of_lookup hc,
          if_pos (beq_self_eq_true _), if_pos hp]
        rfl
      · next hp => rw [← lookup, hc, if_neg hp]; rfl
    · rw [entriesNamed_of_ne h, List.append_nil, t.policy.choose_toList]
      split
      · rw [find?_replaced, ← lookup]
        cases hn : t.lookup name with
        | none => rfl
        | some old' =>
          rw [Option.map_some, name_of_lookup hn, if_neg (fun hb => h (eq_of_beq hb).symm)]
      · rfl

theorem lookup_enterAll (t : SymbolTable) (es : List Entry) (name : String) :
    (t.enterAll es).lookup name =
      t.policy.choose ((t.lookup name).toList ++ entriesNamed name es) := by
  induction es generalizing t with
  | nil => exact (List.append_nil (t.lookup name).toList ▸ t.policy.choose_toList _).symm
  | cons e es ih =>
    have hp : (t.enter e).policy = t.policy := rfl
    rw [enterAll_cons, ih, lookup_enter, hp, PolicySetting.choose_append, List.append_assoc,
      ← entriesNamed_append, List.singleton_append]

/-- **A name resolves to the first or the last of its entries**, as the policy chooses. -/
theorem lookup_ofEntries (policy : PolicySetting) (es : List Entry) (name : String) :
    (ofEntries policy es).lookup name = policy.choose (entriesNamed name es) :=
  lookup_enterAll (empty policy) es name

/-! ### What is refused -/

theorem define_eq_ok {p : DuplicatePolicy} (hp : t.policy = .known p) (hf : t.frozen = false) :
    t.define e location = .ok t' ↔
      (t.policy = .known .error → t.lookup e.name = none) ∧ t.enter e = t' := by
  have henter : t.enter e =
      { t with entries := t.entries ++ [e], resolved := t.resolvedWith e } := rfl
  rw [define, hf, if_neg Bool.false_ne_true, henter, hp]
  cases t.lookup e.name with
  | none => simp only [hf, Except.ok.injEq, implies_true, true_and]
  | some old =>
    cases p with
    | error => simp only [reduceCtorEq, imp_false, not_true_eq_false, false_and]
    | first => simp only [hf, Except.ok.injEq, PolicySetting.known.injEq, reduceCtorEq,
        false_implies, true_and]
    | last => simp only [hf, Except.ok.injEq, PolicySetting.known.injEq, reduceCtorEq,
        false_implies, true_and]

/-- Under a known policy an open table refuses a repeated name where that is an error, and refuses
nothing else. -/
theorem define_eq_error {p : DuplicatePolicy} {f : Failure} (hp : t.policy = .known p)
    (hf : t.frozen = false) :
    t.define e location = .error f ↔
      t.policy = .known .error ∧ ∃ old, t.lookup e.name = some old ∧
        .link ⟨.duplicate e.name old.moduleIndex, location, e.moduleIndex⟩ = f := by
  rw [define, hf, if_neg Bool.false_ne_true, hp]
  cases t.lookup e.name with
  | none => simp
  | some old => cases p <;> simp

/-- The table takes the entries one after another: under `error` each has a name of its own. -/
def Admits (t : SymbolTable) (es : List Entry) : Prop :=
  t.policy = .known .error → (es.map Entry.name).Nodup ∧ ∀ e ∈ es, t.lookup e.name = none

theorem admits_nil (t : SymbolTable) : t.Admits [] :=
  fun _ => ⟨List.nodup_nil, fun _ h => absurd h List.not_mem_nil⟩

theorem admits_cons : t.Admits (e :: es) ↔
    (t.policy = .known .error → t.lookup e.name = none) ∧ (t.enter e).Admits es := by
  have hl (hp : t.policy = .known .error) (he : t.lookup e.name = none) (e' : Entry) :
      (t.enter e).lookup e'.name = none ↔ t.lookup e'.name = none ∧ e.name ≠ e'.name := by
    rw [lookup_enter, PolicySetting.choose_eq_none, List.append_eq_nil_iff,
      Option.toList_eq_nil_iff, entriesNamed_eq_nil]
    simp only [List.mem_singleton, forall_eq]
  unfold Admits
  rw [List.map_cons, List.nodup_cons, List.forall_mem_cons]
  constructor
  · intro h
    refine ⟨fun hp => (h hp).2.1, fun hp => ⟨(h hp).1.2, fun e' he' => ?_⟩⟩
    obtain ⟨⟨hn, -⟩, he, hes⟩ := h hp
    exact (hl hp he e').2 ⟨hes e' he', fun heq => hn (heq ▸ List.mem_map_of_mem he')⟩
  · rintro ⟨he, h⟩ hp
    have hes := (h hp).2
    refine ⟨⟨fun hm => ?_, (h hp).1⟩, he hp, fun e' he' => ((hl hp (he hp) e').1 (hes e' he')).1⟩
    obtain ⟨e', he', heq⟩ := List.mem_map.1 hm
    exact ((hl hp (he hp) e').1 (hes e' he')).2 heq.symm

theorem admits_empty {policy : PolicySetting} :
    (empty policy).Admits es ↔ (policy = .known .error → (es.map Entry.name).Nodup) :=
  ⟨fun h hp => (h hp).1, fun h hp => ⟨h hp, fun _ _ => rfl⟩⟩

end SymbolTable

end Linkage
