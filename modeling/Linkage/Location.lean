/-!
# Locations — where a token was read

A location names the input and gives line and column, both counted from one.  Tokens may also be
supplied by a caller, so line and column are integers of any sign.
-/

namespace Linkage

/-- A place in a named input. -/
structure Location where
  filename : String
  line : Int
  column : Int
  deriving DecidableEq, Repr

/-- The location as it stands at the head of a diagnostic. -/
def Location.text (l : Location) : String := s!"{l.filename}:{l.line}:{l.column}"

end Linkage
