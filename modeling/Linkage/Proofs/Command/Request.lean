import Linkage.Command.Run
import Linkage.FileTree
import Linkage.Proofs.Fold
import Mathlib.Data.List.Induction
import Mathlib.Data.List.Nodup

/-!
# Command line — the request that arguments make

An option may be given more than once, and its last value counts (`Arguments.last?`,
`Arguments.effective_spec`).  The values are checked one after another; each sets what the request
holds of its own option and nothing else (`run_addValue`), so the order does not matter.

`Request.Answers` says what a request holds, option by option.  **A request that is made answers the
arguments, and checking them changes no file** (`run_request`).
-/

namespace Linkage.Command

variable {t t' : FileTree} {input : List UInt8} {a : Arguments} {r r' : Request} {s : ValueOption}
  {value : String}

/-- A step after one that has been run. -/
theorem run_bind {α β : Type} {x : StateM FileTree α} {f : α → StateM FileTree β} {o : α}
    (h : x.run t = (o, t')) : (x >>= f).run t = (f o).run t' := by
  rw [StateT.run_bind, h]
  rfl

/-! ### Values of options -/

/-- The value of an option; where it is given more than once the last one counts. -/
def Arguments.last? (a : Arguments) (s : ValueOption) : Option String := a.values.reverse.lookup s

/-- A value put in the place of the one that an option has. -/
theorem mem_map_replace {found : List (ValueOption × String)} {s₀ : ValueOption} {v₀ : String}
    (h : s₀ ∈ found.map Prod.fst) :
    (s, value) ∈ found.map (fun entry => if entry.1 == s₀ then (s₀, v₀) else entry) ↔
      if s = s₀ then value = v₀ else (s, value) ∈ found := by
  rw [List.mem_map]
  constructor
  · rintro ⟨entry, hentry, heq⟩
    by_cases hs : entry.1 = s₀
    · rw [if_pos (beq_iff_eq.2 hs)] at heq
      cases heq
      exact (if_pos rfl).symm ▸ rfl
    · rw [if_neg fun h => hs (eq_of_beq h)] at heq
      subst heq
      rw [if_neg hs]
      exact hentry
  · split
    · next hs =>
      rintro rfl
      obtain ⟨entry, hentry, heq⟩ := List.mem_map.1 h
      exact ⟨entry, hentry, by rw [if_pos (beq_iff_eq.2 heq), hs]⟩
    · next hs =>
      intro hmem
      exact ⟨_, hmem, if_neg fun h => hs (eq_of_beq h)⟩

/-- The effective values are the last ones, one for each option that is given. -/
theorem Arguments.effective_spec (a : Arguments) :
    (a.effective.map Prod.fst).Nodup ∧
      ∀ s value, (s, value) ∈ a.effective ↔ a.last? s = some value := by
  obtain ⟨flags, values, operands⟩ := a
  unfold effective last?
  -- by induction on the values given: one more takes the place of its option, or a new one
  induction values using List.reverseRecOn with
  | nil => exact ⟨List.nodup_nil, fun s value => iff_of_false List.not_mem_nil nofun⟩
  | append_singleton values entry ih =>
    obtain ⟨s₀, v₀⟩ := entry
    have hlast (s : ValueOption) : (values ++ [(s₀, v₀)]).reverse.lookup s =
        if s = s₀ then some v₀ else values.reverse.lookup s := by
      rw [List.reverse_append, List.reverse_singleton, List.singleton_append, List.lookup_cons]
      by_cases hs : s = s₀
      · rw [if_pos hs, beq_iff_eq.2 hs]
      · rw [if_neg hs, beq_false_of_ne hs]
    simp only [hlast]
    rw [List.foldl_append, List.foldl_cons, List.foldl_nil]
    generalize List.foldl _ [] values = found at ih ⊢
    obtain ⟨hnodup, hmem⟩ := ih
    split
    · next hany =>
      have hs₀ : s₀ ∈ found.map Prod.fst := by
        obtain ⟨entry, hentry, heq⟩ := List.any_eq_true.1 hany
        exact List.mem_map.2 ⟨entry, hentry, eq_of_beq heq⟩
      have hkeys : (Prod.fst ∘ fun entry : ValueOption × String =>
          if entry.1 == s₀ then (s₀, v₀) else entry) = Prod.fst := by
        funext entry
        rw [Function.comp_apply]
        split
        · next heq => exact (eq_of_beq heq).symm
        · rfl
      refine ⟨?_, fun s value => ?_⟩
      · rw [List.map_map, hkeys]
        exact hnodup
      · rw [mem_map_replace hs₀, hmem]
        split
        · rw [Option.some.injEq, eq_comm]
        · exact Iff.rfl
    · next hany =>
      have hs₀ : ∀ value, (s₀, value) ∉ found := fun value h =>
        hany (List.any_eq_true.2 ⟨_, h, beq_self_eq_true s₀⟩)
      refine ⟨?_, fun s value => ?_⟩
      · rw [List.map_append, List.map_singleton]
        refine List.nodup_append.2 ⟨hnodup, List.nodup_singleton s₀, ?_⟩
        rintro s hs _ hs₁ rfl
        obtain ⟨entry, hentry, rfl⟩ := List.mem_map.1 hs
        obtain rfl : s₀ = entry.1 := (List.mem_singleton.1 hs₁).symm
        exact hs₀ entry.2 hentry
      · rw [List.mem_append, List.mem_singleton, Prod.mk.injEq, hmem]
        split
        · next hs =>
          subst hs
          rw [Option.some.injEq]
          constructor
          · rintro (h | ⟨-, h⟩)
            · exact absurd ((hmem s value).2 h) (hs₀ value)
            · exact h.symm
          · rintro rfl
            exact .inr ⟨rfl, rfl⟩
        · next hs => rw [or_iff_left fun h => hs h.1]

/-- What the request holds of an option that has a value, or has none. -/
def Request.Takes (r : Request) (s : ValueOption) (value : Option String) : Prop :=
  match s with
  | .output      => r.output = value.map normalPath
  | .symbols     => r.symbols = value.map normalPath
  | .duplicates  => value.map readPolicy = r.policy.map .ok
  | .machineSize => value.map readMachineSize = r.machineSize.map .ok

theorem readOutput_eq_ok {kind : Option FileKind} {path : String}
    (h : readOutput s value kind = .ok path) : path = normalPath value := by
  unfold readOutput at h
  split at h
  · cases h
  · split at h
    · cases h
    · exact (Except.ok.inj h).symm

/-- Checking a value leaves the files alone, and changes what the request holds of its option
only. -/
theorem run_addValue (t : FileTree) (input : List UInt8) (r : Request) (s : ValueOption)
    (value : String) :
    ∃ o, (addValue (FileTree.fileSystem input) r s value).run t = (o, t) ∧
      ∀ r', o = .ok r' → r'.Takes s (some value) ∧ r'.withModules = r.withModules ∧
        ∀ s' ≠ s, ∀ v, r.Takes s' v → r'.Takes s' v := by
  cases s with
  | output =>
    refine ⟨_, rfl, fun r' h => ?_⟩
    obtain ⟨path, hpath, rfl⟩ := map_eq_ok.1 h
    refine ⟨congrArg some (readOutput_eq_ok hpath), rfl, fun s' hs v hv => ?_⟩
    cases s' <;> first | exact absurd rfl hs | exact hv
  | symbols =>
    refine ⟨_, rfl, fun r' h => ?_⟩
    obtain ⟨path, hpath, rfl⟩ := map_eq_ok.1 h
    refine ⟨congrArg some (readOutput_eq_ok hpath), rfl, fun s' hs v hv => ?_⟩
    cases s' <;> first | exact absurd rfl hs | exact hv
  | duplicates =>
    refine ⟨_, rfl, fun r' h => ?_⟩
    obtain ⟨p, hp, rfl⟩ := map_eq_ok.1 h
    refine ⟨congrArg some hp, rfl, fun s' hs v hv => ?_⟩
    cases s' <;> first | exact absurd rfl hs | exact hv
  | machineSize =>
    refine ⟨_, rfl, fun r' h => ?_⟩
    obtain ⟨n, hsize, rfl⟩ := map_eq_ok.1 h
    refine ⟨congrArg some hsize, rfl, fun s' hs v hv => ?_⟩
    cases s' <;> first | exact absurd rfl hs | exact hv

theorem run_addValues (t : FileTree) (input : List UInt8) (r : Request)
    {values : List (ValueOption × String)} (hn : (values.map Prod.fst).Nodup) :
    ∃ o, (addValues (FileTree.fileSystem input) r values).run t = (o, t) ∧
      ∀ r', o = .ok r' → (∀ s v, (s, v) ∈ values → r'.Takes s (some v)) ∧
        r'.withModules = r.withModules ∧
          ∀ s, s ∉ values.map Prod.fst → ∀ v, r.Takes s v → r'.Takes s v := by
  induction values generalizing r with
  | nil =>
    refine ⟨.ok r, rfl, fun r' h => ?_⟩
    cases h
    exact ⟨fun s v h => absurd h List.not_mem_nil, rfl, fun s _ v h => h⟩
  | cons entry values ih =>
    obtain ⟨s₀, v₀⟩ := entry
    obtain ⟨hs₀, hn⟩ := List.nodup_cons.1 hn
    obtain ⟨o, ho, hadd⟩ := run_addValue t input r s₀ v₀
    rw [addValues, run_bind ho]
    cases o with
    | error e => exact ⟨_, rfl, nofun⟩
    | ok r₁ =>
      obtain ⟨hs, hflag, hother⟩ := hadd r₁ rfl
      obtain ⟨o, ho, hadds⟩ := ih r₁ hn
      refine ⟨o, ho, fun r' hr' => ?_⟩
      obtain ⟨hin, hflags, hout⟩ := hadds r' hr'
      refine ⟨fun s v hsv => ?_, hflags.trans hflag, fun s hsv v hv => ?_⟩
      · rcases List.mem_cons.1 hsv with heq | hsv
        · cases heq
          exact hout s₀ hs₀ _ hs
        · exact hin s v hsv
      · obtain ⟨hne, hnot⟩ := not_or.1 (mt List.mem_cons.2 hsv)
        exact hout s hnot v (hother s hne v hv)

/-! ### Requests -/

/-- The request is what the arguments ask for. -/
structure Request.Answers (r : Request) (a : Arguments) : Prop where
  /-- Each option has its last value. -/
  values : ∀ s, r.Takes s (a.last? s)
  withModules : r.withModules = a.flags.contains .modules
  /-- There is one operand, the input. -/
  input : ∃ value, a.operands = [value] ∧
    r.input = if value = "-" then value else normalPath value

theorem readInput_eq_ok {kind : Option FileKind} {path : String}
    (h : readInput value kind = .ok path) :
    path = if value = "-" then value else normalPath value := by
  unfold readInput at h
  split at h
  · next hv => rw [if_pos hv]; exact (Except.ok.inj h).symm
  · next hv =>
    rw [if_neg hv]
    split at h
    · cases h
    · cases kind with
      | none => cases h
      | some k =>
        cases k with
        | directory => cases h
        | file => exact (Except.ok.inj h).symm

/-- Checking the arguments leaves the files alone, and a request that is made answers them. -/
theorem run_request (t : FileTree) (input : List UInt8) (a : Arguments) :
    ∃ o, (request (FileTree.fileSystem input) a).run t = (o, t) ∧
      ∀ r, o = .ok r → r.Answers a := by
  obtain ⟨hnodup, hlast⟩ := a.effective_spec
  obtain ⟨o, ho, hvalues⟩ := run_addValues t input
    { input := "", withModules := a.flags.contains .modules, verbose := a.flags.contains .verbose }
    hnodup
  rw [request, run_bind ho]
  cases o with
  | error e => exact ⟨_, rfl, nofun⟩
  | ok r₁ =>
    obtain ⟨hin, hflag, hout⟩ := hvalues r₁ rfl
    have htakes (s : ValueOption) : r₁.Takes s (a.last? s) := by
      cases hs : a.last? s with
      | some v => exact hin s v ((hlast s v).2 hs)
      | none =>
        refine hout s (fun hmem => ?_) none (by cases s <;> rfl)
        obtain ⟨⟨s', v⟩, hentry, rfl⟩ := List.mem_map.1 hmem
        cases hs.symm.trans ((hlast s' v).1 hentry)
    dsimp only
    cases hops : a.operands with
    | nil => exact ⟨_, rfl, nofun⟩
    | cons value rest =>
      have hkind : ((FileTree.fileSystem input).kind? value).run t = (t.kind? value, t) := rfl
      dsimp only
      rw [run_bind hkind]
      cases hinput : readInput value (t.kind? value) with
      | error e => exact ⟨_, rfl, nofun⟩
      | ok path =>
        cases rest with
        | cons value' rest => exact ⟨_, rfl, nofun⟩
        | nil =>
          refine ⟨_, rfl, ?_⟩
          rintro _ ⟨⟩
          refine ⟨fun s => ?_, hflag, value, hops, readInput_eq_ok hinput⟩
          have hs := htakes s
          cases s <;> exact hs

end Linkage.Command
