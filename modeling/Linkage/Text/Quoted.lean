import Linkage.Text.Printable

/-!
# Text — quoted form

A text inside a message is shown between quotes, so that its ends and its invisible characters can
be told.  The quotes are single, unless the text holds a single quote and no double one.  A
backslash, the quote in use and every unprintable character are escaped; tab, line feed and carriage
return have letters of their own, any other escape names the code point with two, four or eight
hexadecimal digits.
-/

namespace Linkage.Quoted

/-- The apostrophe, the quote that is preferred. -/
def single : Char := '\x27'

/-- The quotation mark, used around a text that holds an apostrophe only. -/
def double : Char := '\x22'

/-- The quote that goes around a text. -/
def quoteFor (cs : List Char) : Char :=
  if cs.contains single && !cs.contains double then double else single

/-- A hexadecimal digit in lower case. -/
def hexDigit (n : Nat) : Char :=
  if n < 10 then Char.ofNat (48 + n) else Char.ofNat (87 + n)

/-- The last `width` hexadecimal digits of `n`. -/
def hexDigits : Nat → Nat → List Char
  | 0,         _ => []
  | width + 1, n => hexDigits width (n / 16) ++ [hexDigit (n % 16)]

/-- The shortest of the three numeric escapes that has room for the code point. -/
def numericEscape (n : Nat) : List Char :=
  if n < 0x100 then '\\' :: 'x' :: hexDigits 2 n
  else if n < 0x10000 then '\\' :: 'u' :: hexDigits 4 n
  else '\\' :: 'U' :: hexDigits 8 n

/-- How one character is written between two quotes `q`. -/
def escape (q c : Char) : List Char :=
  if c = q || c = '\\' then ['\\', c]
  else if c = '\n' then ['\\', 'n']
  else if c = '\r' then ['\\', 'r']
  else if c = '\t' then ['\\', 't']
  else if isPrintable c then [c]
  else numericEscape c.toNat

/-- The quoted form of a list of characters. -/
def encode (cs : List Char) : List Char :=
  let q := quoteFor cs
  q :: (cs.flatMap (escape q) ++ [q])

end Linkage.Quoted

namespace Linkage

/-- The quoted form of a text. -/
def quoted (text : String) : String := String.ofList (Quoted.encode text.toList)

end Linkage
