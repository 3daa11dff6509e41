import Flowchart.Token.Scan

/-!
A place among tokens. Past the last token the last one is read again and again, so that the end mark
of a source need not be counted; `past` tells how often that happened.
-/

namespace Flowchart

/-- The tokens not yet read, what is read after them, and how many tokens were read after them. -/
structure Cursor where
  rest : List Token
  last : Token
  past : Nat

namespace Cursor

/-- The place before the first token; a list without tokens reads as an end mark at offset zero. -/
def ofTokens (tokens : List Token) : Cursor :=
  ⟨tokens, tokens.getLast?.getD ⟨.finish, 0⟩, 0⟩

def current (cursor : Cursor) : Token := cursor.rest.headD cursor.last

def following (cursor : Cursor) : Token := cursor.rest.tail.headD cursor.last

def advance (cursor : Cursor) : Cursor :=
  match cursor.rest with
  | [] => { cursor with past := cursor.past + 1 }
  | _ :: rest => { cursor with rest }

def unexpected (cursor : Cursor) (wanted : SyntaxError.Wanted) : SyntaxError :=
  ⟨cursor.current.position, .expected wanted cursor.current.kind⟩

def expect (cursor : Cursor) (mark : Mark) : Except SyntaxError Cursor :=
  if cursor.current.kind = .mark mark then .ok cursor.advance
  else .error (cursor.unexpected (.mark mark))

def expectFinish (cursor : Cursor) : Except SyntaxError Unit :=
  if cursor.current.kind = .finish then .ok ()
  else .error (cursor.unexpected .finish)

end Cursor

end Flowchart
