import Flowchart.Text.Blank

/-!
Input directives: the bodies that ask the user for a value, such as `input("How many?", n)`. A
directive is the word `input` or `read` and, between parentheses, an argument and perhaps a slot for
the name of the variable.
-/

namespace Flowchart

structure Directive where
  prompt : String
  variableName : String
  deriving DecidableEq, Repr

namespace Directive

def defaultPrompt : String := "INPUT:"

def defaultVariable : String := "x"

/-- The first argument: a text between quotes, or whatever is written without them. -/
inductive Argument where
  | quoted (content : List Char)
  | bare (content : List Char)
  deriving DecidableEq, Repr

def isQuote (c : Char) : Bool := c = '"' || c = '\''

def isBare (c : Char) : Bool := !(isQuote c || c = ',' || c = '(' || c = ')')

/-- A basic Latin letter, a character that differs from one by its case alone, or a low line. -/
def isSlotStart (c : Char) : Bool := c.isAlpha || c = '_' || c = '\u017f' || c = '\u212a'

def isSlotPart (c : Char) : Bool := isSlotStart c || c.isDigit

/-- What follows a word in lower case that the characters start with in any case. -/
def afterWord? (word cs : List Char) : Option (List Char) :=
  if (cs.take word.length).map Char.toLower = word then some (cs.drop word.length) else none

def afterKeyword? (cs : List Char) : Option (List Char) :=
  afterWord? ['i', 'n', 'p', 'u', 't'] cs <|> afterWord? ['r', 'e', 'a', 'd'] cs

/-- The first argument and what follows it; blanks at the end of a bare argument do not belong to
it. -/
def argument? : List Char → Option (Argument × List Char)
  | [] => some (.bare [], [])
  | c :: cs =>
    if isQuote c then
      match cs.dropWhile (· != c) with
      | [] => none
      | _ :: after => some (.quoted (cs.takeWhile (· != c)), after)
    else
      some (.bare (Text.skipBlanksAtEnd ((c :: cs).takeWhile isBare)), (c :: cs).dropWhile isBare)

def skipQuote : List Char → List Char
  | [] => []
  | c :: cs => if isQuote c then cs else c :: cs

def slotName (cs : List Char) : List Char × List Char :=
  if cs.head?.any isSlotStart then (cs.takeWhile isSlotPart, cs.dropWhile isSlotPart) else ([], cs)

/-- The name in a slot, given what follows its comma. Blanks may surround it, a quote of either kind
may stand on each side, and nothing but the closing parenthesis may follow. -/
def slot? (cs : List Char) : Option (List Char) :=
  let (name, after) := slotName (skipQuote (Text.skipBlanks cs))
  if Text.skipBlanks (skipQuote after) = [')'] then some name else none

def isPlainName : List Char → Bool
  | [] => false
  | c :: cs => (c.isAlpha || c = '_') && cs.all fun d => d.isAlphanum || d = '_'

def orDefault (cs : List Char) (default : String) : String :=
  if cs.isEmpty then default else String.ofList cs

/-- A directive with an argument alone: a bare name is the variable, anything else the prompt. -/
def ofArgument : Argument → Directive
  | .quoted prompt => ⟨orDefault prompt defaultPrompt, defaultVariable⟩
  | .bare content =>
    if isPlainName content then ⟨defaultPrompt, String.ofList content⟩
    else ⟨orDefault content defaultPrompt, defaultVariable⟩

def ofSlot (argument : Argument) (name : List Char) : Directive :=
  let prompt := match argument with
    | .quoted content | .bare content => content
  ⟨orDefault prompt defaultPrompt, orDefault name defaultVariable⟩

def read? (body : String) : Option Directive := do
  match Text.skipBlanks (← afterKeyword? (Text.trimChars body.toList)) with
  | '(' :: inner =>
    let (argument, after) ← argument? (Text.skipBlanks inner)
    match Text.skipBlanks after with
    | [')'] => some (ofArgument argument)
    | ',' :: slot => (slot? slot).map (ofSlot argument)
    | _ => none
  | _ => none

end Directive

end Flowchart
