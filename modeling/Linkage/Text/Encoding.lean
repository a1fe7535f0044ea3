import Linkage.Failure

/-!
# Text — from bytes to characters

A file holds a text in UTF-8.  `decode` gives its characters, or names the first bytes that encode
none: a byte that begins no sequence, a sequence that a wrong byte interrupts (the bytes before it
are at fault), or a sequence that the end of the file interrupts.  Overlong sequences, surrogates
and code points above the last one are wrong from their second byte on.

Lines may end in a line feed, a carriage return, or both; `withLineFeeds` gives every line the first
ending.
-/

namespace Linkage.Encoding

/-- The bytes from `position` on, up to the first of the rest, encode no character. -/
structure Wrong where
  width : Nat
  fault : EncodingFault
  deriving DecidableEq, Repr

/-- The byte continues a sequence. -/
def isContinuation (b : Nat) : Bool := 0x80 ≤ b && b < 0xC0

/-- The byte `b` may follow the byte `first` that begins a sequence. -/
def maySecond (first b : Nat) : Bool :=
  isContinuation b &&
    match first with
    | 0xE0 => 0xA0 ≤ b
    | 0xED => b < 0xA0
    | 0xF0 => 0x90 ≤ b
    | 0xF4 => b < 0x90
    | _    => true

/-- The number of bytes in the sequence that a byte begins. -/
def sequenceLength? (first : Nat) : Option Nat :=
  if first < 0x80 then some 1
  else if first < 0xC2 then none
  else if first < 0xE0 then some 2
  else if first < 0xF0 then some 3
  else if first < 0xF5 then some 4
  else none

/-- The bits of the first byte of a sequence that belong to the character. -/
def leadBits (length first : Nat) : Nat :=
  match length with
  | 1 => first
  | 2 => first - 0xC0
  | 3 => first - 0xE0
  | _ => first - 0xF0

/-- Reads the bytes of a sequence behind its first byte: `due` bytes are due, `read` are read, the
bits so far are `bits`. -/
def continuation (first : Nat) : Nat → Nat → Nat → List UInt8 → Except Wrong Nat
  | 0,       _,    bits, _       => .ok bits
  | _ + 1,   read, _,    []      => .error ⟨read, .unexpectedEnd⟩
  | due + 1, read, bits, b :: bs =>
    let b := b.toNat
    if (if read = 1 then maySecond first b else isContinuation b) then
      continuation first due (read + 1) (bits * 64 + (b - 0x80)) bs
    else .error ⟨read, .invalidContinuation⟩

/-- The character at the head of a list of bytes, and the number of bytes behind its first one. -/
def character (first : UInt8) (rest : List UInt8) : Except Wrong (Char × Nat) :=
  match sequenceLength? first.toNat with
  | none        => .error ⟨1, .invalidStart⟩
  | some length => do
    let bits ← continuation first.toNat (length - 1) 1 (leadBits length first.toNat) rest
    return (Char.ofNat bits, length - 1)

/-- The characters read so far, last one first, with those that a list of bytes encodes behind them;
the first byte of the list stands at `position`. -/
def decodeOnto (before : List Char) (position : Nat) : List UInt8 → Except FileError (List Char)
  | []      => .ok before.reverse
  | b :: bs =>
    match character b bs with
    | .error w       => .error (.undecodable b position w.width w.fault)
    | .ok (c, extra) => decodeOnto (c :: before) (position + 1 + extra) (bs.drop extra)
termination_by bytes => bytes.length
decreasing_by simp only [List.length_drop, List.length_cons]; omega

/-- The characters that a list of bytes encodes. -/
def decode (bytes : List UInt8) : Except FileError (List Char) := decodeOnto [] 0 bytes

/-- The characters gone through, last one first, with the rest behind them, a line feed at the end
of every line of the rest. -/
def withLineFeedsOnto (before : List Char) : List Char → List Char
  | '\r' :: '\n' :: cs => withLineFeedsOnto ('\n' :: before) cs
  | '\r' :: cs         => withLineFeedsOnto ('\n' :: before) cs
  | c :: cs            => withLineFeedsOnto (c :: before) cs
  | []                 => before.reverse

/-- The characters with a line feed at the end of every line. -/
def withLineFeeds (cs : List Char) : List Char := withLineFeedsOnto [] cs

/-- The text that a list of bytes encodes, every line ended by a line feed. -/
def readText (bytes : List UInt8) : Except FileError String :=
  (decode bytes).map fun cs => String.ofList (withLineFeeds cs)

end Linkage.Encoding
