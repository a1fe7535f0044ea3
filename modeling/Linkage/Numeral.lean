import Linkage.Text.DecimalDigit

/-!
# Numerals — decimal text with a length limit

Numbers are read from and written as decimal numerals.  A numeral of more than `digitLimit` digits
is neither read nor written, whatever its value: leading zeros count.

Two forms are read.  A program holds plain numerals, non-empty runs of the digits `0` to `9`
(`isNumeral`, `read`).  Settings are given as signed numerals (`readSigned?`), which may stand
between blanks, use the digits of any script and separate digits by single underscores.
-/

namespace Linkage

/-- Why a numeral could not be read or written. -/
inductive NumeralError where
  /-- A numeral to be read has too many digits. -/
  | tooManyDigits (digits : Nat)
  /-- A number to be written needs too many digits. -/
  | tooLarge
  deriving DecidableEq, Repr

namespace Numeral

/-- The greatest number of digits that is read or written. -/
def digitLimit : Nat := 4300

end Numeral

/-- The wording of a numeral error. -/
def NumeralError.message : NumeralError → String
  | .tooManyDigits digits =>
    s!"Exceeds the limit ({Numeral.digitLimit} digits) for integer string conversion: "
      ++ s!"value has {digits} digits; use sys.set_int_max_str_digits() to increase the limit"
  | .tooLarge =>
    s!"Exceeds the limit ({Numeral.digitLimit} digits) for integer string conversion; "
      ++ "use sys.set_int_max_str_digits() to increase the limit"

namespace Numeral

/-! ### Plain numerals -/

/-- The value of a digit `0` to `9`. -/
def digitValue (c : Char) : Nat := c.toNat - 48

/-- The number that a list of digits writes in base ten. -/
def ofDigits (cs : List Char) : Nat := cs.foldl (fun n c => 10 * n + digitValue c) 0

/-- The characters form a numeral: there is at least one and all are digits. -/
def isNumeral (cs : List Char) : Bool := !cs.isEmpty && cs.all Char.isDigit

/-- Reads a list of digits, unless it is too long. -/
def read (cs : List Char) : Except NumeralError Nat :=
  if digitLimit < cs.length then .error (.tooManyDigits cs.length) else .ok (ofDigits cs)

/-- The number has a numeral of at most `digitLimit` digits. -/
def isWritable (n : Int) : Bool := n.natAbs < Nat.pow 10 digitLimit

theorem isNumeral_eq_true {cs : List Char} :
    isNumeral cs = true ↔ cs ≠ [] ∧ ∀ c ∈ cs, c.isDigit = true := by
  simp [isNumeral]

/-! ### Signed numerals -/

/-- A blank: the controls from tab to carriage return, the space, and the blanks beyond ASCII. -/
def isBlank (c : Char) : Bool :=
  CodePoint.member
    [(0x09, 0x0D), (0x20, 0x20), (0x85, 0x85), (0xA0, 0xA0), (0x1680, 0x1680), (0x2000, 0x200A),
     (0x2028, 0x2029), (0x202F, 0x202F), (0x205F, 0x205F), (0x3000, 0x3000)] c.toNat

/-- The list without the blanks at either end. -/
def trimmed (cs : List Char) : List Char :=
  ((cs.dropWhile isBlank).reverse.dropWhile isBlank).reverse

/-- The digits of a run in which single underscores may stand between two digits. -/
def groupedDigits? : List Char → Option (List Nat)
  | []             => none
  | [c]            => (decimalValue? c).map ([·])
  | c :: '_' :: cs => do return (← decimalValue? c) :: (← groupedDigits? cs)
  | c :: cs        => do return (← decimalValue? c) :: (← groupedDigits? cs)

/-- The value of an unsigned numeral with grouped digits. -/
def readGrouped? (cs : List Char) : Option Nat := do
  let digits ← groupedDigits? cs
  if digitLimit < digits.length then none
  else some (digits.foldl (fun n d => 10 * n + d) 0)

/-- The value of a signed numeral: blanks around it, at most one sign, grouped digits. -/
def readSigned? (text : String) : Option Int :=
  match trimmed text.toList with
  | '-' :: cs => (readGrouped? cs).map fun n => -(n : Int)
  | '+' :: cs => (readGrouped? cs).map fun n => (n : Int)
  | cs        => (readGrouped? cs).map fun n => (n : Int)

end Numeral

end Linkage
