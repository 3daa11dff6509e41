import Flowchart.Expr

/-!
The text of expressions and statements. An operand is put between parentheses exactly when it binds
less tightly than its place asks for: the left operand of an operator may bind as tightly as the
operator, the right one has to bind more tightly, so that a chain of equal operators leans to the
left.
-/

namespace Flowchart

def parenthesized (needed : Bool) (text : String) : String :=
  if needed then "(" ++ text ++ ")" else text

namespace Expr

mutual

/-- The text of an expression where operators of at least the given precedence may stand bare. -/
def renderAt (context : Nat) : Expr → String
  | literal value => value.literal
  | var name => name
  | unary op operand =>
    parenthesized (unaryPrecedence < context) (op.symbol ++ operand.renderAt unaryPrecedence)
  | binary op left right =>
    parenthesized (op.precedence < context)
      (left.renderAt op.precedence ++ " " ++ op.symbol ++ " " ++ right.renderAt (op.precedence + 1))
  | call function arguments =>
    function.name ++ "(" ++ ", ".intercalate (renderAll arguments) ++ ")"

def renderAll : List Expr → List String
  | [] => []
  | argument :: rest => argument.renderAt 0 :: renderAll rest

end

def render (expr : Expr) : String := expr.renderAt 0

end Expr

def Statement.render : Statement → String
  | assign target value => target ++ " = " ++ value.render
  | eval expr => expr.render

end Flowchart
