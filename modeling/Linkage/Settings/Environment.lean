import Linkage.Event
import Linkage.Text.Casing

/-!
# Settings — what the environment tells

Three environment variables set the machine size, the duplicate policy and the report of unused
names.  An empty value counts as none.  A value that cannot be read is ignored, which is reported,
and the default is kept; no bounds are checked here.
-/

namespace Linkage

/-- The values of the environment variables. -/
structure Environment where
  machineSize : Option String := none
  duplicates : Option String := none
  warnUnused : Option String := none
  deriving DecidableEq, Repr

namespace Environment

/-- The variable that sets the machine size. -/
def machineSizeVariable : String := "TWOPASS_MACHINE_SIZE"

/-- The variable that sets the duplicate policy. -/
def duplicatesVariable : String := "TWOPASS_DUPLICATES"

/-- The variable that turns the report of unused names off. -/
def warnUnusedVariable : String := "TWOPASS_WARN_UNUSED"

/-- A value that is not empty. -/
def given? (value : Option String) : Option String := value.filter (!·.isEmpty)

/-- What `read?` makes of a value, or the default when there is none to be read. -/
def setting {α : Type} (read? : String → Option α) (default : α) (value : Option String) : α :=
  ((given? value).bind read?).getD default

/-- The event that reports a value which `read?` cannot read. -/
def ignored {α : Type} (read? : String → Option α) (variableName : String)
    (value : Option String) : List Event :=
  match given? value with
  | some text => if (read? text).isNone then [.settingIgnored variableName text] else []
  | none      => []

/-- The policy that a word names, in letters of either case. -/
def policy? (text : String) : Option DuplicatePolicy := DuplicatePolicy.ofWord? (lowered text)

/-- The words that turn the report of unused names off. -/
def negativeWords : List String := ["0", "false", "no", "off"]

/-- Whether a text leaves the report of unused names on. -/
def warns (text : String) : Bool := !negativeWords.contains (lowered text)

end Environment

/-- The settings that an environment gives. -/
def Settings.ofEnvironment (env : Environment) : Settings :=
  { machineSize := Environment.setting Numeral.readSigned? wordRadix env.machineSize
    policy := .known (Environment.setting Environment.policy? .error env.duplicates)
    warnUnused := Environment.setting (some <| Environment.warns ·) true env.warnUnused }

/-- The events that report the values of an environment which are ignored. -/
def Environment.events (env : Environment) : List Event :=
  ignored Numeral.readSigned? machineSizeVariable env.machineSize
    ++ ignored policy? duplicatesVariable env.duplicates

end Linkage
