import Flowchart.Expr
import Flowchart.SyntaxError

/-!
Faults: why a body cannot be run to its end.
-/

namespace Flowchart

inductive Operation where
  | unary (op : UnaryOp)
  | binary (op : BinaryOp)
  deriving DecidableEq, Repr

def Operation.symbol : Operation → String
  | unary op => op.symbol
  | binary op => op.symbol

inductive OperandType where
  | number
  | text
  | numberOrText
  deriving DecidableEq, Repr

def OperandType.name : OperandType → String
  | number => "Number"
  | text => "Text"
  | numberOrText => "Number or Text"

inductive Fault where
  | unreadable (error : SyntaxError)
  | undefinedVariable (name : String)
  | divisionByZero (op : BinaryOp)
  | typeMismatch (operation : Operation) (expected : OperandType) (found : Value)
  | argumentCount (function : Builtin) (expected found : Nat)
  deriving DecidableEq

def Fault.message : Fault → String
  | unreadable error => error.message
  | undefinedVariable name => "Variable '" ++ name ++ "' is not defined"
  | divisionByZero op => "Division by zero in '" ++ op.symbol ++ "'"
  | typeMismatch operation expected found =>
    "Type mismatch during operation '" ++ operation.symbol ++ "': expected " ++ expected.name
      ++ ", but found value '" ++ found.display ++ "'"
  | argumentCount function expected found =>
    "Function '" ++ function.name ++ "' expects " ++ expected.repr ++ " argument(s), but received "
      ++ found.repr

end Flowchart
