/-!
# Text — letter case

Words that the program knows are written in lower-case ASCII letters.  A given text is compared with
them in one of two ways: `lowered` maps the letters `A` to `Z` only, `folded` also replaces the
other characters whose full case folding consists of ASCII letters.
-/

namespace Linkage

/-- The text with the letters `A` to `Z` in lower case. -/
def lowered (text : String) : String := String.ofList (text.toList.map Char.toLower)

/-- The case folding of a character, where it consists of ASCII letters; any other character stands
for itself. -/
def foldedChar (c : Char) : List Char :=
  match c.toNat with
  | 0x00DF | 0x1E9E => ['s', 's']
  | 0x017F          => ['s']
  | 0x212A          => ['k']
  | 0xFB00          => ['f', 'f']
  | 0xFB01          => ['f', 'i']
  | 0xFB02          => ['f', 'l']
  | 0xFB03          => ['f', 'f', 'i']
  | 0xFB04          => ['f', 'f', 'l']
  | 0xFB05 | 0xFB06 => ['s', 't']
  | _               => [c.toLower]

/-- The text with every character folded. -/
def folded (text : String) : String := String.ofList (text.toList.flatMap foldedChar)

end Linkage
