import Linkage.Proofs.Numeral
import Linkage.Settings.Environment

/-!
# Settings — which environments give settings that can be used

Each of the three settings is told by one variable (`Environment.Told`): it is what the variable
writes, or the default where the variable is unset or writes nothing that can be read.  So no value
has an effect on another setting, and one that cannot be read has none at all.

**The machine size alone decides** whether the settings can be used (`Settings.ofEnvironment_told`):
a size is taken over as it is read, whatever its bounds.  The policy is always one of the three.
A size out of bounds makes settings that are refused (`ofEnvironment_zero`).
-/

namespace Linkage

theorem DuplicatePolicy.ofWord?_eq_some {word : String} {p : DuplicatePolicy} :
    ofWord? word = some p ↔ word = p.word := by
  constructor
  · intro h
    have hword := List.find?_some (p := fun q : DuplicatePolicy => decide (q.word = word)) h
    exact (of_decide_eq_true hword).symm
  · rintro rfl
    exact ofWord?_word p

namespace Environment

variable {α : Type} {writes : String → α → Prop} {read? : String → Option α} {default a : α}
  {value : Option String}

/-- The setting `a` as a variable tells it: it is what the value writes, or the default when there
is no value or it writes nothing. -/
def Told (writes : String → α → Prop) (default : α) (value : Option String) (a : α) : Prop :=
  (∃ text, value = some text ∧ writes text a) ∨
    (∀ text b, value = some text → ¬ writes text b) ∧ a = default

/-- A value that is not empty is read as what it writes. -/
theorem told_setting (h : ∀ text b, writes text b ↔ text ≠ "" ∧ read? text = some b) :
    Told writes default value (setting read? default value) := by
  have hwrites (b : α) : (∃ text, value = some text ∧ writes text b) ↔
      (given? value).bind read? = some b := by
    simp only [h, Option.bind_eq_some_iff, given?, Option.filter_eq_some_iff, and_assoc]
    simp
  unfold setting
  cases hread : (given? value).bind read? with
  | some b => exact .inl ((hwrites b).2 hread)
  | none =>
    refine .inr ⟨fun text b htext hb => ?_, rfl⟩
    cases hread.symm.trans ((hwrites b).1 ⟨text, htext, hb⟩)

/-- The text is the word of the policy in letters of either case. -/
def WritesPolicy (text : String) (p : DuplicatePolicy) : Prop := lowered text = p.word

instance (text : String) (p : DuplicatePolicy) : Decidable (WritesPolicy text p) :=
  inferInstanceAs (Decidable (_ = _))

/-- Any text but the empty one says whether unused names are reported; some words say no. -/
def WritesWarn (text : String) (warn : Bool) : Prop :=
  text ≠ "" ∧ (warn = false ↔ lowered text ∈ negativeWords)

theorem writesSigned_iff {text : String} {n : Int} :
    Numeral.WritesSigned text n ↔ text ≠ "" ∧ Numeral.readSigned? text = some n := by
  rw [Numeral.readSigned?_eq_some]
  refine ⟨fun h => ⟨?_, h⟩, And.right⟩
  rintro rfl
  cases Numeral.readSigned?_eq_some.2 h

theorem writesPolicy_iff {text : String} {p : DuplicatePolicy} :
    WritesPolicy text p ↔ text ≠ "" ∧ policy? text = some p := by
  rw [policy?, DuplicatePolicy.ofWord?_eq_some]
  refine ⟨fun h => ⟨?_, h⟩, And.right⟩
  rintro rfl
  cases p <;> exact absurd h (by decide)

theorem writesWarn_iff {text : String} {warn : Bool} :
    WritesWarn text warn ↔ text ≠ "" ∧ (some (warns text) : Option Bool) = some warn := by
  unfold WritesWarn warns
  cases warn <;> simp

end Environment

open Environment

/-- **What an environment gives.**  Each setting is what its own variable writes, or the default;
and the settings can be used exactly when a machine size that is written is in bounds. -/
theorem Settings.ofEnvironment_told (env : Environment) :
    Told Numeral.WritesSigned wordRadix env.machineSize (ofEnvironment env).machineSize ∧
    (∃ p, (ofEnvironment env).policy = .known p ∧ Told WritesPolicy .error env.duplicates p) ∧
    Told WritesWarn true env.warnUnused (ofEnvironment env).warnUnused ∧
    ((ofEnvironment env).validate = .ok () ↔ ∀ text n, env.machineSize = some text →
      Numeral.WritesSigned text n → 1 ≤ n ∧ n ≤ wordRadix) := by
  have hsize : Told Numeral.WritesSigned wordRadix env.machineSize
      (ofEnvironment env).machineSize := told_setting fun _ _ => writesSigned_iff
  refine ⟨hsize, ⟨_, rfl, told_setting fun _ _ => writesPolicy_iff⟩,
    told_setting fun _ _ => writesWarn_iff, ?_⟩
  rw [validate_eq_ok]
  have hpolicy : (ofEnvironment env).policy.isKnown = true := rfl
  constructor
  · rintro ⟨-, hlo, hhi⟩ text n htext hn
    rcases hsize with ⟨text', htext', hn'⟩ | ⟨hnone, -⟩
    · obtain rfl : text = text' := Option.some.inj (htext.symm.trans htext')
      have hread := (writesSigned_iff.1 hn).2
      rw [(writesSigned_iff.1 hn').2] at hread
      obtain rfl := Option.some.inj hread
      exact ⟨hlo, hhi⟩
    · exact absurd hn (hnone text n htext)
  · intro h
    rcases hsize with ⟨text, htext, hn⟩ | ⟨-, hdefault⟩
    · exact ⟨hpolicy, h text _ htext hn⟩
    · exact ⟨hpolicy, by rw [hdefault]; decide, Int.le_of_eq hdefault⟩

/-- **An environment may give settings that are refused**: a machine size of zero is taken over. -/
theorem Settings.ofEnvironment_zero :
    ¬ ∀ env : Environment, (ofEnvironment env).validate = .ok () := by
  intro h
  have hzero : (ofEnvironment { machineSize := some "0" }).validate =
      .error (.badMachineSize 0) := by
    decide
  cases hzero.symm.trans (h _)

end Linkage
