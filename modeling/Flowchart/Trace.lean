import Flowchart.Expr.Printer

/-!
Traces: records of an evaluation that hold the outcome of every part. A trace names operators and
functions by their text, so that a trace can also be read that no expression of the language leaves
behind.
-/

namespace Flowchart

inductive Trace where
  | literal (value : Value)
  | var (name : String) (value : Value)
  | unary (symbol : String) (operand : Trace) (outcome : Value)
  | binary (symbol : String) (left right : Trace) (outcome : Value)
  | call (function : String) (arguments : List Trace) (outcome : Value)
  /-- An operand that did not matter any more. -/
  | skipped

namespace Trace

/-- The value that an evaluation came to; what was skipped counts as false. -/
def outcome : Trace → Value
  | literal value | var _ value => value
  | unary _ _ outcome | binary _ _ _ outcome | call _ _ outcome => outcome
  | skipped => .bool false

/-- How tightly the root of a trace holds together; an unknown operator binds not at all. -/
def precedence : Trace → Nat
  | binary symbol _ _ _ => ((BinaryOp.ofSymbol? symbol).map BinaryOp.precedence).getD 0
  | unary _ _ _ => unaryPrecedence
  | literal _ | var _ _ | call _ _ _ | skipped => atomPrecedence

def isSkipped : Trace → Bool
  | skipped => true
  | _ => false

mutual

/-- The text of a trace where operators of at least the given precedence may stand bare. Variables
tell the value they held, and an operator whose right operand was skipped is shown by its left
operand alone. -/
def reasonAt (context : Nat) (trace : Trace) : String :=
  parenthesized (trace.precedence < context) <|
    match trace with
    | literal value => value.literal
    | var name value => name ++ " (was " ++ value.literal ++ ")"
    | unary symbol operand _ => symbol ++ operand.reasonAt unaryPrecedence
    | binary symbol left right _ =>
      let own := ((BinaryOp.ofSymbol? symbol).map BinaryOp.precedence).getD 0
      let leftText := left.reasonAt own
      if right.isSkipped then leftText
      else leftText ++ " " ++ symbol ++ " " ++ right.reasonAt (own + 1)
    | call function arguments _ => function ++ "(" ++ ", ".intercalate (reasonAll arguments) ++ ")"
    | skipped => ""

def reasonAll : List Trace → List String
  | [] => []
  | argument :: rest => argument.reasonAt 0 :: reasonAll rest

end

def reason (trace : Trace) : String := trace.reasonAt 0

end Trace

end Flowchart
