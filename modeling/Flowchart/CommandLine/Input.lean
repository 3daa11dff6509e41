/-!
What the user types, line by line. A line can be read if its bytes are a text in UTF-8. One that
cannot is the end of the input for its reader, as is the end of the bytes.
-/

namespace Flowchart.CommandLine

structure Input where
  /-- The lines that can be read. -/
  lines : List String
  /-- Why no more can be read, if it is not that there is no more. -/
  fault : Option String
  deriving DecidableEq, Repr

def newline : UInt8 := 10

def endsLine (c : Char) : Bool := c = '\n' || c = '\r'

def stripLine (cs : List Char) : String := String.ofList (cs.reverse.dropWhile endsLine).reverse

/-- The text of a line without the characters that end it, or the reason why it is no text. -/
def decodeLine (bytes : List UInt8) : Except String String :=
  match String.fromUTF8? bytes.toByteArray with
  | some line => .ok (stripLine line.toList)
  | none => .error "stream did not contain valid UTF-8"

/-- The lines of an input, each with its end; `begun` is the part already read of the first. -/
def linesFrom (begun : List UInt8) : List UInt8 → List (List UInt8)
  | [] => if begun.isEmpty then [] else [begun]
  | byte :: bytes =>
    if byte = newline then (begun ++ [byte]) :: linesFrom [] bytes
    else linesFrom (begun ++ [byte]) bytes

namespace Input

def ofLines : List (List UInt8) → Input
  | [] => ⟨[], none⟩
  | bytes :: rest =>
    match decodeLine bytes with
    | .error fault => ⟨[], some fault⟩
    | .ok line =>
      let input := ofLines rest
      { input with lines := line :: input.lines }

def ofBytes (bytes : List UInt8) : Input := ofLines (linesFrom [] bytes)

end Input

def typedLines (text : String) : Input := .ofBytes text.toUTF8.data.toList

end Flowchart.CommandLine
