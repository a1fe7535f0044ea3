/-!
# Text — control sequences of a terminal

A control sequence is an escape character, an opening bracket, any number of parameter characters
and an ASCII letter that ends it.  A message is printed without the control sequences in it; an
escape character that begins none stays.  What is left is not looked through again.
-/

namespace Linkage

namespace ControlSequence

/-- The characters between the bracket and the letter of a control sequence. -/
def isParameter (c : Char) : Bool := c.isDigit || c == ';' || c == '?'

/-- The number of characters of the control sequence that a text begins with. -/
def length? : List Char → Option Nat
  | '\x1b' :: '[' :: rest =>
    let parameters := rest.takeWhile isParameter
    match rest.drop parameters.length with
    | c :: _ => if c.isAlpha then some (parameters.length + 3) else none
    | []     => none
  | _ => none

/-- A text without its first `n` characters and without the control sequences behind them. -/
def removedAfter : Nat → List Char → List Char
  | _,     []      => []
  | n + 1, _ :: cs => removedAfter n cs
  | 0,     c :: cs =>
    match length? (c :: cs) with
    | some n => removedAfter (n - 1) cs
    | none   => c :: removedAfter 0 cs

end ControlSequence

/-- A text without its control sequences. -/
def withoutControlSequences (text : String) : String :=
  String.ofList (ControlSequence.removedAfter 0 text.toList)

end Linkage
