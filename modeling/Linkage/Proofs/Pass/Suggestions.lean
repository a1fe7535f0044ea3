import Linkage.Proofs.Pass.Instructions
import Linkage.Proofs.Similarity.CloseNames
import Linkage.Proofs.SymbolTable.History

/-!
# Second pass — the names offered for an undefined symbol

An external reference to a name without an entry is refused, and the error offers the defined names
that are close to it.  A table has each of its names once, whatever the policy and however often the
names are defined again (`SymbolTable.consistent_after`); so the names offered are those of the
ranking, each once.

**The names offered are sound, complete and best** (`linkInstruction_suggests`).
-/

namespace Linkage

/-! ### The names of a table -/

namespace SymbolTable

/-- A table has the names of its entries, each once. -/
structure Consistent (t : SymbolTable) : Prop where
  nodup : t.names.Nodup
  mem_iff : ∀ name, name ∈ t.names ↔ name ∈ t.entries.map Entry.name

variable {t t' : SymbolTable} {e : Entry} {location : Option Location} {c : Call}

theorem Consistent.enter (h : t.Consistent) (e : Entry) : (t.enter e).Consistent := by
  have hentries : (t.enter e).entries.map Entry.name = t.entries.map Entry.name ++ [e.name] :=
    List.map_append
  constructor
  · rw [names_enter]
    split
    · exact h.nodup
    · next hnew => exact List.concat_eq_append ▸ h.nodup.concat hnew
  · intro name
    rw [hentries, List.mem_append, List.mem_singleton, ← h.mem_iff, names_enter]
    split
    · next hold => exact ⟨.inl, fun hname => hname.elim id (· ▸ hold)⟩
    · rw [List.mem_append, List.mem_singleton]

/-- A definition that is accepted enters its entry. -/
theorem eq_enter_of_define (h : t.define e location = .ok t') : t' = t.enter e := by
  unfold define at h
  split at h
  · cases h
  · split at h
    · cases h
    · cases h
    · exact (Except.ok.inj h).symm

theorem Consistent.perform (h : t.Consistent) (c : Call) : (t.perform c).reached.Consistent := by
  cases c with
  | define e location =>
    cases hd : t.define e location with
    | ok t' =>
      simp only [SymbolTable.perform, hd]
      exact eq_enter_of_define hd ▸ h.enter e
    | error f =>
      simp only [SymbolTable.perform, hd]
      exact h
  | freeze => exact ⟨h.nodup, h.mem_iff⟩

/-- After any calls a new table has the names of its entries, each once. -/
theorem consistent_after (policy : PolicySetting) (calls : List Call) :
    ((empty policy).after calls).Consistent := by
  have hempty : (empty policy).Consistent := ⟨.nil, fun _ => Iff.rfl⟩
  generalize empty policy = t at hempty ⊢
  induction calls generalizing t with
  | nil => exact hempty
  | cons c calls ih => exact ih _ (hempty.perform c)

theorem lookup_eq_none_iff (h : t.Consistent) {name : String} :
    t.lookup name = none ↔ name ∉ t.entries.map Entry.name := by
  rw [← h.mem_iff, ← contains_iff, contains, Bool.not_eq_true, Option.isSome_eq_false_iff,
    Option.isNone_iff_eq_none]

end SymbolTable

/-! ### The names that are offered -/

open Similarity

variable (settings : Settings) (i : Nat) (words : MemoryMap) {t : SymbolTable} {m : Module}
  {x : Instruction} {u : Use}

/-- An external reference to a name without an entry is refused. -/
theorem Module.linkInstruction_undefined (hx : x.classification = .external)
    (hu : elementAt? m.uses x.address = some u) (hnone : t.lookup u.name = none) :
    (m.linkInstruction settings t i words x).result =
      .error (m.unresolved x
        (.undefinedSymbol u.name x.address i (closeNames t.names u.name))) := by
  have hlt : ¬ (m.uses.length : Int) ≤ x.address := fun hle => by
    rw [elementAt?_of_length_le hle] at hu
    cases hu
  have haddress : m.externalAddress t i x = .error (m.unresolved x
      (.undefinedSymbol u.name x.address i (closeNames t.names u.name))) := by
    rw [externalAddress, if_neg hlt, elementAt, hu]
    simp only [hnone]
  have hrelocated : m.relocated t i x = .error (m.unresolved x
      (.undefinedSymbol u.name x.address i (closeNames t.names u.name))) := by
    rw [relocated, hx, haddress]
    rfl
  rw [linkInstruction, hrelocated]

theorem suggestion_eq (names : List String) :
    suggestion names = if names = [] then none else
      some ("did you mean " ++ ", ".intercalate (names.map fun n => "'" ++ n ++ "'") ++ "?") := by
  cases names <;> rfl

/-- **The names offered for an undefined symbol.**  A table has taken any definitions under any
policy, and an instruction refers to a name without an entry.  The hint of the error lists the best
three of the defined names that are close to it, and there is a hint just when there is a close
name.  No close name is hidden by the bounds that are tried first. -/
theorem linkInstruction_suggests {policy : PolicySetting} {calls : List SymbolTable.Call}
    (hx : x.classification = .external) (hu : elementAt? m.uses x.address = some u)
    (hundefined : u.name ∉ ((SymbolTable.empty policy).after calls).entries.map Entry.name) :
    let t := (SymbolTable.empty policy).after calls
    let defined := t.entries.map Entry.name
    ∃ (similar : List String) (e : LinkError),
      (m.linkInstruction settings t i words x).result = .error (.link e) ∧
      e = ⟨.undefinedSymbol u.name x.address i similar, x.location, m.index⟩ ∧
      (e.diagnostic.hint = if similar = [] then none else
        some ("did you mean " ++ ", ".intercalate (similar.map fun n => "'" ++ n ++ "'") ++ "?")) ∧
      (e.diagnostic.hint.isSome ↔ ∃ n ∈ defined, 3 / 5 ≤ similarity n u.name) ∧
      Best defined u.name similar ∧
      ∀ n ∈ defined, 3 / 5 ≤ similarity n u.name →
        reaches (min n.toList.length u.name.toList.length) (totalSize n u.name) = true ∧
          reaches (common n.toList u.name.toList) (totalSize n u.name) = true := by
  intro t defined
  have ht : t.Consistent := SymbolTable.consistent_after policy calls
  have hnames : u.name ∉ t.names := fun h => hundefined ((ht.mem_iff _).1 h)
  have hbest : Best defined u.name (closeNames t.names u.name) :=
    (best_closeNames hnames ht.nodup).congr ht.mem_iff
  have hnone : t.lookup u.name = none := (SymbolTable.lookup_eq_none_iff ht).2 hundefined
  refine ⟨closeNames t.names u.name, _,
    Module.linkInstruction_undefined settings i words hx hu hnone, rfl, suggestion_eq _, ?_, hbest,
    ?_⟩
  · show (suggestion (closeNames t.names u.name)).isSome ↔ _
    rw [suggestion_eq, ← hbest.ne_nil_iff]
    split <;> simp [*]
  · intro n hn hclose
    have hne : n ≠ u.name := fun h => hundefined (h ▸ hn)
    exact reaches_bounds ((reaches_similarity hne).2 hclose)

/-- Of the names, two are close to the misspelt one; the longer one is the more similar. -/
theorem best_counr :
    Best ["count", "total", "counter", "count"] "counr" ["counter", "count"] := by
  have hcount : similarity "count" "counr" = 4 / 5 := by
    rw [similarity, show matchedSize "count" "counr" = 4 by cbv,
      show totalSize "count" "counr" = 10 by decide]
    norm_num
  have htotal : similarity "total" "counr" = 1 / 5 := by
    rw [similarity, show matchedSize "total" "counr" = 1 by cbv,
      show totalSize "total" "counr" = 10 by decide]
    norm_num
  have hcounter : similarity "counter" "counr" = 5 / 6 := by
    rw [similarity, show matchedSize "counter" "counr" = 5 by cbv,
      show totalSize "counter" "counr" = 12 by decide]
    norm_num
  refine ⟨by decide, by decide, ["counter", "count"], rfl, ?_, fun n => ?_⟩
  · have hbefore : ComesBefore "counr" "counter" "count" := by
      refine .inl ?_
      rw [hcount, hcounter]
      norm_num
    exact List.pairwise_pair.2 hbefore
  · simp only [List.mem_cons, List.not_mem_nil, or_false]
    constructor
    · rintro (rfl | rfl)
      · exact ⟨by simp, by rw [hcounter]; norm_num⟩
      · exact ⟨by simp, by rw [hcount]; norm_num⟩
    · rintro ⟨rfl | rfl | rfl | rfl, hclose⟩
      · simp
      · rw [htotal] at hclose
        norm_num at hclose
      · simp
      · simp

/-- A long name of one character, which is popular in it. -/
def longName : String := .ofList (List.replicate 200 'a')

/-- The long name with another first character. -/
def changedName : String := .ofList ('b' :: List.replicate 199 'a')

theorem toList_longName : longName.toList = List.replicate 200 'a' := String.toList_ofList

theorem toList_changedName : changedName.toList = 'b' :: List.replicate 199 'a' :=
  String.toList_ofList

/-- The two names have all characters but one in common, and yet are not close. -/
theorem best_longName : Best [changedName] longName [] := by
  have hpopular : ∀ c ∈ longName.toList, isPopular longName.toList c = true := by
    rw [toList_longName]
    intro c hc
    rw [List.eq_of_mem_replicate hc, isPopular, List.length_replicate, List.count_replicate_self]
    rfl
  have hzero : matchedSize changedName longName = 0 := by
    refine matchedSize_eq_zero_of_popular hpopular ?_
    rw [toList_longName, toList_changedName]
    decide
  refine ⟨.nil, List.not_mem_nil, [], rfl, .nil, fun n => ?_⟩
  rw [List.mem_singleton]
  refine ⟨fun h => absurd h List.not_mem_nil, ?_⟩
  rintro ⟨rfl, hclose⟩
  rw [similarity_eq_zero hzero] at hclose
  exact absurd hclose (by norm_num)

/-- A misspelt name has two names close to it, one of which is defined twice.  To a long name of one
character, which begins no block, none is offered. -/
theorem linkInstruction_suggests_misspelt :
    let x : Instruction := .fresh .external 2 0 none
    let m : String → Module := fun name => { uses := [⟨name, none⟩], instructions := [x] }
    let t := (SymbolTable.empty DuplicatePolicy.last).after
      [.define ⟨"count", 0, 0⟩ none, .define ⟨"total", 1, 0⟩ none, .define ⟨"counter", 2, 1⟩ none,
        .define ⟨"count", 3, 1⟩ none, .freeze]
    let t' := (SymbolTable.empty DuplicatePolicy.last).after
      [.define ⟨changedName, 0, 0⟩ none, .freeze]
    ("counr" ∉ t.entries.map Entry.name ∧ ∃ e : LinkError,
      ((m "counr").linkInstruction {} t 0 .empty x).result = .error (.link e) ∧
      e = ⟨.undefinedSymbol "counr" 0 0 ["counter", "count"], none, 0⟩ ∧
      e.diagnostic.hint = some "did you mean 'counter', 'count'?") ∧
    longName ∉ t'.entries.map Entry.name ∧ ∃ e : LinkError,
      ((m longName).linkInstruction {} t' 0 .empty x).result = .error (.link e) ∧
      e = ⟨.undefinedSymbol longName 0 0 [], none, 0⟩ ∧
      e.diagnostic.hint = none := by
  intro x m t t'
  have hu (name : String) : elementAt? (m name).uses x.address = some ⟨name, none⟩ := rfl
  have hmisspelt : "counr" ∉ t.entries.map Entry.name := by decide
  have hlong : longName ∉ t'.entries.map Entry.name := by
    show longName ∉ [changedName]
    rw [List.mem_singleton, ← String.toList_inj, toList_longName, toList_changedName]
    decide
  refine ⟨⟨hmisspelt, ?_⟩, hlong, ?_⟩
  · obtain ⟨similar, e, hresult, he, hhint, -, hbest, -⟩ :=
      linkInstruction_suggests {} 0 .empty rfl (hu "counr") hmisspelt
    obtain rfl : similar = ["counter", "count"] := hbest.unique best_counr
    exact ⟨e, hresult, he, hhint.trans rfl⟩
  · obtain ⟨similar, e, hresult, he, hhint, -, hbest, -⟩ :=
      linkInstruction_suggests {} 0 .empty rfl (hu longName) hlong
    obtain rfl : similar = [] := hbest.unique best_longName
    exact ⟨e, hresult, he, hhint.trans rfl⟩

end Linkage
