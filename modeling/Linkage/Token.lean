import Linkage.Location
import Linkage.Text.Alphanumeric
import Linkage.Text.Quoted

/-!
# Tokens — the maximal alphanumeric runs of an input

A token is a maximal run of letters and numbers; every other character separates.  `Token.scan`
gives the tokens of an input in order, each with its index and the line and column of its first
character.  Only a line feed ends a line.

The scan walks over the characters with the position of the next one in hand: a separator advances
the position, a run becomes a lexeme and advances the position by its length.  The same positions
are found from token to token: a `LineTrack` keeps the line and the place where it begins, and looks
for line feeds behind the token before.
-/

namespace Linkage

/-- A token: its text, its place in the stream, and where it was read. -/
structure Token where
  text : String
  index : Int
  location : Location
  deriving DecidableEq, Repr

namespace Token

/-- The characters of the token. -/
def chars (t : Token) : List Char := t.text.toList

/-- The token as a debugging text shows it. -/
def describe (t : Token) : String :=
  s!"Token({quoted t.text}, #{t.index}, {t.location.line}:{t.location.column})"

end Token

/-! ### Positions -/

/-- The line and column of a character. -/
structure Position where
  line : Nat
  column : Nat
  deriving DecidableEq, Repr

namespace Position

/-- The position of the first character of an input. -/
def start : Position := ⟨1, 1⟩

/-- The position after a character that stands at `p`. -/
def advance (p : Position) (c : Char) : Position :=
  if c = '\n' then ⟨p.line + 1, 1⟩ else ⟨p.line, p.column + 1⟩

/-- The position after a list of characters that begins at `p`. -/
def advanceAll (p : Position) (cs : List Char) : Position := cs.foldl advance p

@[simp] theorem advanceAll_nil (p : Position) : p.advanceAll [] = p := rfl

@[simp] theorem advanceAll_cons (p : Position) (c : Char) (cs : List Char) :
    p.advanceAll (c :: cs) = (p.advance c).advanceAll cs := rfl

end Position

/-! ### Scanning -/

/-- A maximal run and the position of its first character. -/
structure Lexeme where
  position : Position
  chars : List Char
  deriving DecidableEq, Repr

/-- The maximal runs of a list of characters that begins at the given position. -/
def lexemes (p : Position) : List Char → List Lexeme
  | []      => []
  | c :: cs =>
    if isAlphanumeric c then
      let run := c :: cs.takeWhile isAlphanumeric
      ⟨p, run⟩ :: lexemes (p.advanceAll run) (cs.dropWhile isAlphanumeric)
    else lexemes (p.advance c) cs
termination_by cs => cs.length
decreasing_by
  · exact Nat.lt_succ_of_le (List.dropWhile_suffix _).length_le
  · exact Nat.lt_succ_self _

/-- The token that a lexeme gives at an index of the stream. -/
def Lexeme.token (filename : String) (l : Lexeme) (index : Nat) : Token :=
  ⟨String.ofList l.chars, index, ⟨filename, l.position.line, l.position.column⟩⟩

/-- The tokens of an input in order. -/
def Token.scan (source : String) (filename : String) : List Token :=
  (lexemes Position.start source.toList).zipIdx.map fun (l, i) => l.token filename i

/-! ### Line tracking -/

/-- The characters from place `s` on and before place `p`. -/
def window (cs : List Char) (s p : Nat) : List Char := (cs.take p).drop s

/-- The place behind the last line feed that stands at place `s` or behind it and before place `p`;
zero when there is none. -/
def behindLineFeed (cs : List Char) (s : Nat) : Nat → Nat
  | 0     => 0
  | p + 1 => if s ≤ p ∧ cs[p]? = some '\n' then p + 1 else behindLineFeed cs s p

/-- A line, the place where it begins, and the place up to which line feeds have been looked for. -/
structure LineTrack where
  line : Nat := 1
  lineStart : Nat := 0
  scanned : Nat := 0
  deriving DecidableEq, Repr

namespace LineTrack

/-- Going on to place `p`, line feeds are looked for from the place looked at last. -/
def moveTo (cs : List Char) (k : LineTrack) (p : Nat) : LineTrack :=
  let feeds := (window cs k.scanned p).count '\n'
  if feeds = 0 then { k with scanned := p }
  else ⟨k.line + feeds, behindLineFeed cs k.scanned p, p⟩

/-- The position of place `p` on the line. -/
def position (k : LineTrack) (p : Nat) : Position := ⟨k.line, p - k.lineStart + 1⟩

/-- The positions of some places, gone to one after another. -/
def positions (cs : List Char) (k : LineTrack) : List Nat → List Position
  | []      => []
  | p :: ps => (k.moveTo cs p).position p :: positions cs (k.moveTo cs p) ps

end LineTrack

end Linkage
