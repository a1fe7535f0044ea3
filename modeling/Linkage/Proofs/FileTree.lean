import Linkage.FileTree
import Linkage.Proofs.Fold

/-!
# Files — what writing a file changes

Writing replaces the content of one file and leaves every other one alone (`content?_put`).  Paths
lead where they led before: a walk that gets along ends at the same name, where a file may stand now
that was absent (`walk_put`).  So two paths that lead to different names can be written one after the
other, and each file then holds its text (`written_written`).

`FileTree.target?` is the name of the file that a path leads to, whether there is one yet or not.
**A path can be written when it leads to one** (`writeText_eq_ok`).
-/

namespace Linkage

/-- The place, once a file stands under a name. -/
def Place.filled (name : FileName) : Place → Place
  | .absent n => if n = name then .file n else .absent n
  | p         => p

namespace FileTree

variable {t : FileTree} {name n : FileName} {bytes : List UInt8} {path text : String} {p p' : Place}

/-! ### Contents -/

@[simp] theorem directories_put (t : FileTree) (name : FileName) (bytes : List UInt8) :
    (t.put name bytes).directories = t.directories := by
  unfold put
  split <;> rfl

/-- Writing a file gives it its content, and leaves the content of every other file. -/
theorem content?_put (t : FileTree) (name : FileName) (bytes : List UInt8) (n : FileName) :
    (t.put name bytes).content? n = if n = name then some bytes else t.content? n := by
  unfold put
  split
  · next h =>
    -- the file is replaced where it stands, under the same name
    have hname : ((fun f : FileName × List UInt8 => f.1 == n) ∘
        fun f => if f.1 == name then (name, bytes) else f) = fun f => f.1 == n := by
      funext f
      show ((if f.1 == name then (name, bytes) else f).1 == n) = (f.1 == n)
      split
      · next hf => rw [eq_of_beq hf]
      · rfl
    unfold content?
    rw [List.find?_map, hname, Option.map_map]
    cases hfind : t.files.find? (fun f => f.1 == n) with
    | none =>
      refine (if_neg fun hn => ?_).symm
      subst hn
      rw [content?, hfind] at h
      cases h
    | some f =>
      have hfound := List.find?_some hfind
      have hf : f.1 = n := eq_of_beq hfound
      rw [Option.map_some, Function.comp_apply, ← hf]
      by_cases hn : f.1 = name
      · rw [if_pos hn, if_pos (beq_iff_eq.2 hn)]
      · rw [if_neg hn, if_neg fun h => hn (eq_of_beq h)]
        rfl
  · next h =>
    have hnone : t.files.find? (fun f => f.1 == name) = none := by
      rwa [content?, Option.isSome_map, Bool.not_eq_true, Option.isSome_eq_false_iff,
        Option.isNone_iff_eq_none] at h
    unfold content?
    rw [List.find?_append]
    by_cases hn : n = name
    · subst hn
      rw [hnone, Option.none_or, List.find?_cons, beq_self_eq_true, if_pos rfl]
      rfl
    · rw [if_neg hn, List.find?_singleton, if_neg fun h => hn (eq_of_beq h).symm, Option.or_none]

/-! ### Walks -/

theorem lookUp_put (t : FileTree) (name : FileName) (bytes : List UInt8) (n : FileName) :
    (t.put name bytes).lookUp n = (t.lookUp n).filled name := by
  unfold lookUp
  rw [directories_put, content?_put]
  by_cases hn : n = name
  · rw [if_pos hn, Option.isSome_some, if_pos rfl]
    split
    · rfl
    · split
      · rfl
      · exact (if_pos hn).symm
  · rw [if_neg hn]
    split
    · rfl
    · split
      · rfl
      · exact (if_neg hn).symm

/-- A step from a directory ends where it did, once a file has been written. -/
theorem walkStep_put (t : FileTree) (name : FileName) (bytes : List UInt8) (n : FileName)
    (part : List Char) :
    (t.put name bytes).walkStep (.directory n) part =
      (t.walkStep (.directory n) part).map (Place.filled name) := by
  simp only [walkStep, lookUp_put]
  repeat' split
  all_goals rfl

/-- A walk that gets along ends where it did, once a file has been written. -/
theorem walk_put (h : t.walk path = .ok p) :
    (t.put name bytes).walk path = .ok (p.filled name) := by
  -- by induction on the components: a walk that goes on stands in a directory
  have hsteps (parts : List (List Char)) (p₀ : Place) (h : parts.foldlM t.walkStep p₀ = .ok p) :
      parts.foldlM (t.put name bytes).walkStep (p₀.filled name) = .ok (p.filled name) := by
    induction parts generalizing p₀ with
    | nil => cases h; rfl
    | cons part parts ih =>
      rw [List.foldlM_cons, bind_eq_ok] at h ⊢
      obtain ⟨p₁, hstep, h⟩ := h
      refine ⟨p₁.filled name, ?_, ih p₁ h⟩
      cases p₀ with
      | absent n => cases hstep
      | file n => cases hstep
      | directory n =>
        show (t.put name bytes).walkStep (.directory n) part = _
        rw [walkStep_put, hstep]
        rfl
  unfold walk at h ⊢
  split at h
  · cases h
  · next hnul =>
    rw [if_neg hnul]
    split at h
    · cases h
    · next hlong =>
      rw [if_neg hlong]
      split at h
      · cases h
      · next hempty =>
        rw [if_neg hempty]
        exact hsteps _ _ h

/-! ### Files to be written -/

/-- The name of the file that a path leads to, if there is one or one can be made. -/
def target? (t : FileTree) (path : String) : Option FileName :=
  match t.walk path with
  | .ok (.file name)   => some name
  | .ok (.absent name) => some name
  | _                  => none

theorem target?_eq_some :
    t.target? path = some name ↔
      t.walk path = .ok (.file name) ∨ t.walk path = .ok (.absent name) := by
  unfold target?
  split
  · next h => simp only [h, Option.some.injEq, Except.ok.injEq, Place.file.injEq, reduceCtorEq, or_false]
  · next h => simp only [h, Option.some.injEq, Except.ok.injEq, Place.absent.injEq, reduceCtorEq, false_or]
  · next hfile habsent =>
    refine iff_of_false nofun ?_
    rintro (h | h)
    · exact hfile name h
    · exact habsent name h

/-- A path that leads to a file can be written. -/
theorem writeText_of_target? (h : t.target? path = some name) (text : String) :
    t.writeText path text = .ok (t.put name text.toUTF8.toList) := by
  unfold writeText
  rcases target?_eq_some.1 h with h | h <;> rw [h]

/-- **A path can be written** when it leads to a file, and no other can. -/
theorem exists_writeText_iff :
    (∃ t', t.writeText path text = .ok t') ↔ ∃ name, t.target? path = some name := by
  constructor
  · rintro ⟨t', h⟩
    unfold writeText at h
    split at h
    · cases h
    · cases h
    · next name hw => exact ⟨name, target?_eq_some.2 (.inr hw)⟩
    · next name hw => exact ⟨name, target?_eq_some.2 (.inl hw)⟩
  · rintro ⟨name, h⟩
    exact ⟨_, writeText_of_target? h text⟩

/-- A path leads to the same file once a file has been written. -/
theorem target?_put (h : t.target? path = some n) :
    (t.put name bytes).target? path = some n := by
  rw [target?_eq_some]
  rcases target?_eq_some.1 h with h | h
  · exact .inl (walk_put h)
  · rw [walk_put h, Place.filled]
    split
    · exact .inl rfl
    · exact .inr rfl

theorem readBytes_eq_ok :
    t.readBytes path = .ok bytes ↔
      ∃ name, t.walk path = .ok (.file name) ∧ t.content? name = some bytes := by
  unfold readBytes
  cases hw : t.walk path with
  | error o => exact iff_of_false nofun nofun
  | ok p =>
    cases p with
    | directory n => exact iff_of_false nofun fun ⟨_, h, _⟩ => by cases h
    | absent n => exact iff_of_false nofun fun ⟨_, h, _⟩ => by cases h
    | file n =>
      simp only [Except.ok.injEq, Place.file.injEq, exists_eq_left']
      cases t.content? n with
      | none => exact iff_of_false nofun nofun
      | some b => simp only [Except.ok.injEq, Option.some.injEq]

/-- A file that has been written holds its text. -/
theorem readBytes_put (h : t.target? path = some name) :
    (t.put name bytes).readBytes path = .ok bytes := by
  refine readBytes_eq_ok.2 ⟨name, ?_, ?_⟩
  · rcases target?_eq_some.1 h with h | h
    · exact walk_put h
    · rw [walk_put h, Place.filled, if_pos rfl]
  · rw [content?_put, if_pos rfl]

/-- A file keeps its bytes when another one is written. -/
theorem readBytes_put_of_ne {b : List UInt8} (h : t.readBytes path = .ok b)
    (hn : t.target? path ≠ some name) : (t.put name bytes).readBytes path = .ok b := by
  obtain ⟨n, hw, hc⟩ := readBytes_eq_ok.1 h
  refine readBytes_eq_ok.2 ⟨n, walk_put hw, ?_⟩
  rw [content?_put, if_neg, hc]
  rintro rfl
  exact hn (target?_eq_some.2 (.inl hw))

/-! ### Files that may be asked for -/

/-- The tree with a text written to the file at a path, if a path is given. -/
def written (t : FileTree) (path : Option String) (text : String) : FileTree :=
  match path.bind t.target? with
  | some name => t.put name text.toUTF8.toList
  | none      => t

/-- Only the file that the path leads to is changed. -/
theorem content?_written (path : Option String) (text : String)
    (hn : ∀ p, path = some p → t.target? p ≠ some n) :
    (t.written path text).content? n = t.content? n := by
  unfold written
  split
  · next name h =>
    obtain ⟨p, hp, hname⟩ := Option.bind_eq_some_iff.1 h
    rw [content?_put, if_neg]
    rintro rfl
    exact hn p hp hname
  · rfl

theorem directories_written (t : FileTree) (path : Option String) (text : String) :
    (t.written path text).directories = t.directories := by
  unfold written
  split
  · exact directories_put ..
  · rfl

theorem target?_written {other : Option String} (h : t.target? path = some n) :
    (t.written other text).target? path = some n := by
  unfold written
  split
  · exact target?_put h
  · exact h

theorem readBytes_written (h : t.target? path = some n) :
    (t.written (some path) text).readBytes path = .ok text.toUTF8.toList := by
  rw [written, Option.bind_some, h]
  exact readBytes_put h

theorem readBytes_written_of_ne {other : Option String} (h : t.readBytes path = .ok bytes)
    (hn : ∀ p, other = some p → t.target? p ≠ t.target? path) :
    (t.written other text).readBytes path = .ok bytes := by
  unfold written
  split
  · next name hname =>
    obtain ⟨p, hp, htarget⟩ := Option.bind_eq_some_iff.1 hname
    exact readBytes_put_of_ne h fun heq => hn p hp (htarget.trans heq.symm)
  · exact h

/-- **Two files**: texts that are written one after the other to files that are not the same are
their contents, and nothing else is changed. -/
theorem written_written {first second : Option String} (text text' : String)
    (h : ∀ p, first = some p ∨ second = some p → ∃ n, t.target? p = some n)
    (hne : ∀ p q, first = some p → second = some q → t.target? p ≠ t.target? q) :
    (∀ p, first = some p →
      ((t.written first text).written second text').readBytes p = .ok text.toUTF8.toList) ∧
    (∀ p, second = some p →
      ((t.written first text).written second text').readBytes p = .ok text'.toUTF8.toList) ∧
    ((t.written first text).written second text').directories = t.directories ∧
    ∀ n, (∀ p, first = some p ∨ second = some p → t.target? p ≠ some n) →
      ((t.written first text).written second text').content? n = t.content? n := by
  refine ⟨fun p hp => ?_, fun p hp => ?_, ?_, fun n hn => ?_⟩
  · obtain ⟨n, htarget⟩ := h p (.inl hp)
    subst hp
    refine readBytes_written_of_ne (readBytes_written htarget) fun q hq => ?_
    obtain ⟨m, hq'⟩ := h q (.inr hq)
    rw [target?_written hq', target?_written htarget, ← hq', ← htarget]
    exact (hne p q rfl hq).symm
  · obtain ⟨n, htarget⟩ := h p (.inr hp)
    subst hp
    exact readBytes_written (target?_written htarget)
  · rw [directories_written, directories_written]
  · rw [content?_written, content?_written]
    · exact fun p hp => hn p (.inl hp)
    · intro p hp
      obtain ⟨m, htarget⟩ := h p (.inr hp)
      rw [target?_written htarget, ← htarget]
      exact hn p (.inr hp)

end FileTree

end Linkage
