import Flowchart.Token

/-!
Syntax errors: where a body cannot be read, and why.
-/

namespace Flowchart

namespace SyntaxError

inductive Wanted where
  | expression
  | mark (m : Mark)
  | finish
  deriving DecidableEq

def Wanted.describe : Wanted → String
  | .expression => "an expression"
  | .mark m => (Token.Kind.mark m).describe
  | .finish => Token.Kind.finish.describe

inductive Cause where
  /-- No token starts with this character. -/
  | strayCharacter (c : Char)
  /-- A character that is a mark only when it is written twice stands alone. -/
  | loneCharacter (c : Char)
  /-- This character follows a backslash in a text but stands for nothing there. -/
  | unknownEscape (c : Char)
  | openText
  | expected (wanted : Wanted) (found : Token.Kind)
  | unknownFunction (name : String)
  /-- A limit of the language on nesting or on the height of expressions is passed. -/
  | tooDeep
  deriving DecidableEq

def Cause.message : Cause → String
  | .strayCharacter c => "unexpected character '" ++ c.toString ++ "'"
  | .loneCharacter c => "expected '" ++ c.toString ++ c.toString ++ "'"
  | .unknownEscape c => "unknown escape sequence '\\" ++ c.toString ++ "'"
  | .openText => "unterminated text literal"
  | .expected wanted found => "expected " ++ wanted.describe ++ ", found " ++ found.describe
  | .unknownFunction name => "unknown function '" ++ name ++ "'"
  | .tooDeep => "expression nested too deeply"

def messageAt (position : Nat) (complaint : String) : String :=
  "syntax error at column " ++ position.repr ++ ": " ++ complaint

end SyntaxError

/-- The offset, in bytes of the source, at which reading failed, and the cause. -/
structure SyntaxError where
  position : Nat
  cause : SyntaxError.Cause
  deriving DecidableEq

def SyntaxError.message (error : SyntaxError) : String :=
  messageAt error.position error.cause.message

end Flowchart
