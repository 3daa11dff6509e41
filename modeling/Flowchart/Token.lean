import Flowchart.Value

/-!
Tokens of the body language, and how messages name them.
-/

namespace Flowchart

inductive Mark where
  | leftParen | rightParen | comma | semicolon
  | plus | minus | star | slash | percent | bang
  | assign | equal | notEqual | less | lessEqual | greater | greaterEqual
  | both | either
  deriving DecidableEq, Repr

def Mark.text : Mark → String
  | leftParen => "("
  | rightParen => ")"
  | comma => ","
  | semicolon => ";"
  | plus => "+"
  | minus => "-"
  | star => "*"
  | slash => "/"
  | percent => "%"
  | bang => "!"
  | assign => "="
  | equal => "=="
  | notEqual => "!="
  | less => "<"
  | lessEqual => "<="
  | greater => ">"
  | greaterEqual => ">="
  | both => "&&"
  | either => "||"

namespace Token

/-- What a token says. The truth values are words of the language and never names. -/
inductive Kind where
  | number (x : Float)
  | text (s : String)
  | name (s : String)
  | bool (b : Bool)
  | mark (m : Mark)
  /-- The end of the source, or of one statement of it. -/
  | finish
  deriving DecidableEq

def Kind.describe : Kind → String
  | .number x => "number " ++ Value.displayNumber x
  | .text s => "text " ++ Text.quoted s
  | .name s => "'" ++ s ++ "'"
  | .bool b => "'" ++ (Value.bool b).display ++ "'"
  | .mark m => "'" ++ m.text ++ "'"
  | .finish => "end of input"

end Token

/-- A token and the offset, in bytes of the source, of its first character. -/
structure Token where
  kind : Token.Kind
  position : Nat
  deriving DecidableEq

end Flowchart
