/-!
Upper case as far as it yields basic Latin letters: a search for a capitalised basic Latin word in
the upper case of a text sees no difference to the upper case of every script.
-/

namespace Flowchart.Text

/-- The characters above U+007F whose upper case holds a basic Latin letter, with that upper
case. -/
def latinCapitals : List (Char × List Char) :=
  [('\u00df', ['S', 'S']), ('\u0131', ['I']), ('\u0149', ['\u02bc', 'N']), ('\u017f', ['S']),
   ('\u01f0', ['J', '\u030c']), ('\u1e96', ['H', '\u0331']), ('\u1e97', ['T', '\u0308']),
   ('\u1e98', ['W', '\u030a']), ('\u1e99', ['Y', '\u030a']), ('\u1e9a', ['A', '\u02be']),
   ('\ufb00', ['F', 'F']), ('\ufb01', ['F', 'I']), ('\ufb02', ['F', 'L']),
   ('\ufb03', ['F', 'F', 'I']), ('\ufb04', ['F', 'F', 'L']), ('\ufb05', ['S', 'T']),
   ('\ufb06', ['S', 'T'])]

/-- The upper case of a character; one whose upper case holds no basic Latin letter is left
alone. -/
def capitals (c : Char) : List Char := (latinCapitals.lookup c).getD [c.toUpper]

def occursIn (word : List Char) : List Char → Bool
  | [] => word.isEmpty
  | c :: cs => word.isPrefixOf (c :: cs) || occursIn word cs

def mentionsInCapitals (word text : String) : Bool :=
  occursIn word.toList (text.toList.flatMap capitals)

end Flowchart.Text
