import Flowchart.Value

/-!
JSON texts: the quoting of strings, the notation of numbers, and documents written on one line or
indented by two spaces a level.
-/

namespace Flowchart

/-- A JSON document whose objects keep the order of their members. -/
inductive Json where
  | null
  | bool (b : Bool)
  | number (x : Float)
  | count (n : Nat)
  | text (s : String)
  | list (items : List Json)
  | object (members : List (String × Json))

namespace Json

def controlEscape (c : Char) : List Char :=
  let digits := Nat.toDigits 16 c.toNat
  ['\\', 'u'] ++ List.replicate (4 - digits.length) '0' ++ digits

/-- How one character is written in a string: only the quote, the backslash and controls are
escaped. -/
def quotedChar (c : Char) : List Char :=
  match c with
  | '"' => ['\\', '"']
  | '\\' => ['\\', '\\']
  | '\x08' => ['\\', 'b']
  | '\x0c' => ['\\', 'f']
  | '\n' => ['\\', 'n']
  | '\r' => ['\\', 'r']
  | '\t' => ['\\', 't']
  | c => if c.toNat < 0x20 then controlEscape c else [c]

def quoted (s : String) : String :=
  String.ofList ('"' :: s.toList.flatMap quotedChar ++ ['"'])

/-- Numbers are written by the shortest decimal that reads back, of two equally close ones the even
one, with a point in whole numbers, without an exponent from `1e-5` up to `1e16`, and with the sign
of a negative zero. -/
def numberLayout : Number.Layout where
  tie := .toEven
  isPositional leading := -5 ≤ leading && leading < 16
  wholeMark := ".0"
  signsZero := true

def writeNumber (x : Float) : String :=
  if x.isFinite then numberLayout.write x else "null"

mutual

def compact : Json → String
  | null => "null"
  | bool b => if b then "true" else "false"
  | number x => writeNumber x
  | count n => n.repr
  | text s => quoted s
  | list items => "[" ++ ",".intercalate (compactItems items) ++ "]"
  | object members => "\x7b" ++ ",".intercalate (compactMembers members) ++ "\x7d"

def compactItems : List Json → List String
  | [] => []
  | item :: rest => item.compact :: compactItems rest

def compactMembers : List (String × Json) → List String
  | [] => []
  | (name, value) :: rest => (quoted name ++ ":" ++ value.compact) :: compactMembers rest

end

def newLine (level : Nat) : String := "\n" ++ String.ofList (List.replicate (2 * level) ' ')

/-- Items between brackets, each on a line of its own one level deeper; nothing is broken if there
are none. -/
def bracketed (opening closing : String) (level : Nat) (items : List String) : String :=
  if items.isEmpty then opening ++ closing
  else
    opening ++ newLine (level + 1) ++ ("," ++ newLine (level + 1)).intercalate items
      ++ newLine level ++ closing

mutual

def prettyAt (level : Nat) : Json → String
  | null => "null"
  | bool b => if b then "true" else "false"
  | number x => writeNumber x
  | count n => n.repr
  | text s => quoted s
  | list items => bracketed "[" "]" level (prettyItems (level + 1) items)
  | object members => bracketed "\x7b" "\x7d" level (prettyMembers (level + 1) members)

def prettyItems (level : Nat) : List Json → List String
  | [] => []
  | item :: rest => item.prettyAt level :: prettyItems level rest

def prettyMembers (level : Nat) : List (String × Json) → List String
  | [] => []
  | (name, value) :: rest =>
    (quoted name ++ ": " ++ value.prettyAt level) :: prettyMembers level rest

end

def pretty (document : Json) : String := document.prettyAt 0

end Json

/-- A value as JSON, without a mark of its type. -/
def Json.ofValue : Value → Json
  | .number x => .number x
  | .text s => .text s
  | .bool b => .bool b

end Flowchart
