import Flowchart.Text.CodeRange

/-!
Blank characters: those with the Unicode property White_Space. They separate tokens, surround
authored names, and are taken off both ends of a text by `trimChars`.
-/

namespace Flowchart.Text

def blankRanges : CodeRanges :=
  [(0x85, 0x85), (0xa0, 0xa0), (0x1680, 0x1680), (0x2000, 0x200a), (0x2028, 0x2029),
   (0x202f, 0x202f), (0x205f, 0x205f), (0x3000, 0x3000)]

/-- A blank is a space, one of the controls from tab to carriage return, or a blank of the table. -/
def isBlank (c : Char) : Bool :=
  c = ' ' || (9 ≤ c.toNat && c.toNat ≤ 13) || blankRanges.contains c

def skipBlanks (cs : List Char) : List Char := cs.dropWhile isBlank

def skipBlanksAtEnd (cs : List Char) : List Char := (skipBlanks cs.reverse).reverse

def trimChars (cs : List Char) : List Char := skipBlanksAtEnd (skipBlanks cs)

def isAllBlank (s : String) : Bool := s.toList.all isBlank

end Flowchart.Text
