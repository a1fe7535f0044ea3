import Linkage.Text.Quoted

/-!
# Given values — what stands in place of a word

Where a policy or a classification is named by a word, something else may be given.  A message shows
the value (`shown`) or says of which kind it is (`kind`).
-/

namespace Linkage

/-- A value that is given in place of a word. -/
inductive GivenValue where
  | text (s : String)
  | number (n : Int)
  | truth (b : Bool)
  /-- No value at all. -/
  | nothing
  deriving DecidableEq, Repr

namespace GivenValue

/-- The value as messages show it. -/
def shown : GivenValue → String
  | .text s      => quoted s
  | .number n    => toString n
  | .truth true  => "True"
  | .truth false => "False"
  | .nothing     => "None"

/-- The kind of the value as messages name it. -/
def kind : GivenValue → String
  | .text _   => "str"
  | .number _ => "int"
  | .truth _  => "bool"
  | .nothing  => "NoneType"

end GivenValue

end Linkage
