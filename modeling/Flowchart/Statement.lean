import Flowchart.Expr.Parser

/-!
Bodies of statements. Semicolons cut a body into statements, each of which gets an end mark of its
own, so that one statement can be read without the others; statements without a token are left out.
-/

namespace Flowchart

def Token.Kind.endsStatement (kind : Kind) : Bool := kind = .mark .semicolon || kind = .finish

namespace Statement

/-- Cuts tokens into statements; `begun` are the tokens already read of the statement at the
front. -/
def splitFrom (begun : List Token) : List Token → List (List Token)
  | [] => []
  | token :: rest =>
    if token.kind.endsStatement then
      if begun.isEmpty then splitFrom [] rest
      else (begun ++ [⟨.finish, token.position⟩]) :: splitFrom [] rest
    else splitFrom (begun ++ [token]) rest

def split (source : String) : Except SyntaxError (List (List Token)) :=
  (Token.scan source).map (splitFrom [])

def parseAll (source : String) : Except SyntaxError (List Statement) := do
  (← split source).mapM ofTokens

end Statement

end Flowchart
