import Linkage.Failure
import Linkage.Module

/-!
# Words — names of classifications and policies, read from given values

A classification is named by its letter alone and a policy by its word; any other value is a fault.
-/

namespace Linkage

/-- The text that a value is. -/
def GivenValue.text? : GivenValue → Option String
  | .text s => some s
  | _       => none

/-- The classification that a text consisting of its letter names. -/
def Classification.ofText? (text : String) : Option Classification :=
  match text.toList with
  | [c] => ofLetter? c
  | _   => none

/-- The classification that a value names. -/
def Classification.ofValue (value : GivenValue) : Except Failure Classification :=
  match value.text?.bind ofText? with
  | some k => .ok k
  | none   => .error (.fault (.unknownClassification value))

/-- The policy that a value names. -/
def DuplicatePolicy.ofValue (value : GivenValue) : Except Failure DuplicatePolicy :=
  match value.text?.bind ofWord? with
  | some p => .ok p
  | none   => .error (.fault (.unknownPolicy value))

/-- The word of a policy setting; a value that is no policy has none. -/
def PolicySetting.word : PolicySetting → Except Failure String
  | .known policy  => .ok policy.word
  | .unknown value => .error (.fault (.noPolicyWord value))

end Linkage
