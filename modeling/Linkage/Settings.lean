import Linkage.GivenValue

/-!
# Settings — what a link may be told

The machine size bounds every address.  A word is an opcode followed by an address below
`wordRadix`, so the machine size never exceeds `wordRadix`.  The duplicate policy is one of three,
or a value that is none of them.  `Settings.validate` refuses what cannot be used, the policy first;
settings that have not been validated can still be linked with.
-/

namespace Linkage

/-- A word is `opcode * wordRadix + address`. -/
def wordRadix : Int := 1000

/-- What becomes of a symbol that is defined more than once. -/
inductive DuplicatePolicy where
  /-- The second definition is an error. -/
  | error
  /-- The earliest definition holds. -/
  | first
  /-- The latest definition holds. -/
  | last
  deriving DecidableEq, Repr

namespace DuplicatePolicy

/-- The word that names the policy. -/
def word : DuplicatePolicy → String
  | .error => "error"
  | .first => "first"
  | .last  => "last"

/-- The policies in the order they are listed. -/
def all : List DuplicatePolicy := [.error, .first, .last]

/-- The policy that a word names. -/
def ofWord? (w : String) : Option DuplicatePolicy := all.find? (·.word = w)

theorem ofWord?_word (p : DuplicatePolicy) : ofWord? p.word = some p := by
  cases p <;> decide

end DuplicatePolicy

/-- The duplicate policy that settings hold. -/
inductive PolicySetting where
  | known (policy : DuplicatePolicy)
  /-- A value that is no policy; a repeated definition fails under it. -/
  | unknown (value : GivenValue)
  deriving DecidableEq, Repr

/-- The setting is one of the three policies. -/
def PolicySetting.isKnown : PolicySetting → Bool
  | .known _   => true
  | .unknown _ => false

instance : Coe DuplicatePolicy PolicySetting := ⟨.known⟩

/-- The settings of a link. -/
structure Settings where
  /-- The number of addressable words. -/
  machineSize : Int := wordRadix
  /-- The treatment of symbols that are defined more than once. -/
  policy : PolicySetting := .known .error
  /-- Whether symbols and use list entries that nobody uses are reported. -/
  warnUnused : Bool := true
  deriving DecidableEq, Repr

/-- Why settings are refused. -/
inductive SettingsError where
  /-- The duplicate policy is none of the three. -/
  | unknownPolicy (value : GivenValue)
  /-- The machine size is below one or above `wordRadix`. -/
  | badMachineSize (size : Int)
  deriving DecidableEq, Repr

/-- The wording of refused settings. -/
def SettingsError.message : SettingsError → String
  | .unknownPolicy value => s!"unknown duplicate policy {value.shown}"
  | .badMachineSize size => s!"machine size must be between 1 and {wordRadix}, got {size}"

namespace Settings

/-- The greatest address of the machine. -/
def maxAddress (s : Settings) : Int := s.machineSize - 1

/-- The settings can be used. -/
def IsValid (s : Settings) : Prop :=
  s.policy.isKnown ∧ 1 ≤ s.machineSize ∧ s.machineSize ≤ wordRadix

instance (s : Settings) : Decidable s.IsValid := inferInstanceAs (Decidable (_ ∧ _))

/-- Refuses an unknown policy, and then a machine size out of bounds. -/
def validate (s : Settings) : Except SettingsError Unit :=
  match s.policy with
  | .unknown value => .error (.unknownPolicy value)
  | .known _       =>
    if 1 ≤ s.machineSize ∧ s.machineSize ≤ wordRadix then .ok ()
    else .error (.badMachineSize s.machineSize)

theorem validate_eq_ok {s : Settings} : s.validate = .ok () ↔ s.IsValid := by
  unfold validate IsValid
  cases s.policy with
  | unknown value => simp [PolicySetting.isKnown]
  | known policy => simp only [PolicySetting.isKnown, true_and]; split <;> simp_all

end Settings

end Linkage
