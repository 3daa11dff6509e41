import Flowchart.Environment
import Flowchart.Fault
import Flowchart.Number.Remainder
import Flowchart.Statement
import Flowchart.Trace

/-!
Evaluation of expressions and execution of bodies. Operands are evaluated from left to right and
before their operator is applied; the first fault ends an evaluation, but lines printed and
variables set before it remain.
-/

namespace Flowchart

/-- A computation that prints lines and may fail; what was printed before a fault is printed all the
same. -/
structure Printing (α : Type) where
  lines : List String
  result : Except Fault α

namespace Printing

def fail {α : Type} (fault : Fault) : Printing α := ⟨[], .error fault⟩

def ofExcept {α : Type} (result : Except Fault α) : Printing α := ⟨[], result⟩

def print (line : String) : Printing Unit := ⟨[line], .ok ()⟩

protected def bind {α β : Type} (first : Printing α) (next : α → Printing β) : Printing β :=
  match first.result with
  | .error fault => ⟨first.lines, .error fault⟩
  | .ok a => ⟨first.lines ++ (next a).lines, (next a).result⟩

instance : Monad Printing where
  pure a := ⟨[], .ok a⟩
  bind := Printing.bind

end Printing

def numberOrder? (x y : Float) : Option Ordering :=
  if x < y then some .lt
  else if x == y then some .eq
  else if y < x then some .gt
  else none

namespace BinaryOp

def holdsOf (op : BinaryOp) (order : Ordering) : Bool :=
  match op with
  | less => order.isLT
  | lessEqual => order.isLE
  | greater => order.isGT
  | greaterEqual => order.isGE
  | _ => false

def applyComparison (op : BinaryOp) : Value → Value → Except Fault Value
  | .number x, .number y => .ok (.bool ((numberOrder? x y).any op.holdsOf))
  | .text s, .text t => .ok (.bool (op.holdsOf (compareOfLessAndEq s t)))
  | .number _, found => .error (.typeMismatch (.binary op) .number found)
  | .text _, found => .error (.typeMismatch (.binary op) .text found)
  | found, _ => .error (.typeMismatch (.binary op) .numberOrText found)

def applyArithmetic (op : BinaryOp) (calculate : Float → Float → Except Fault Float) :
    Value → Value → Except Fault Value
  | .number x, .number y => (calculate x y).map .number
  | .number _, found => .error (.typeMismatch (.binary op) .number found)
  | found, _ => .error (.typeMismatch (.binary op) .number found)

/-- The sum of two numbers; if either operand is a text, the texts that both show as are joined. -/
def applySum : Value → Value → Except Fault Value
  | .number x, .number y => .ok (.number (x + y))
  | .text s, right => .ok (.text (s ++ right.display))
  | left, .text t => .ok (.text (left.display ++ t))
  | .number _, found => .error (.typeMismatch (.binary add) .numberOrText found)
  | found, _ => .error (.typeMismatch (.binary add) .numberOrText found)

def divideBy (op : BinaryOp) (calculate : Float → Float → Float) (x y : Float) :
    Except Fault Float :=
  if y == 0.0 then .error (.divisionByZero op) else .ok (calculate x y)

def apply (op : BinaryOp) (left right : Value) : Except Fault Value :=
  match op with
  | or => .ok (.bool (left.isTruthy || right.isTruthy))
  | and => .ok (.bool (left.isTruthy && right.isTruthy))
  | equal => .ok (.bool (left.equals right))
  | notEqual => .ok (.bool !(left.equals right))
  | less | lessEqual | greater | greaterEqual => op.applyComparison left right
  | add => applySum left right
  | subtract => op.applyArithmetic (fun x y => .ok (x - y)) left right
  | multiply => op.applyArithmetic (fun x y => .ok (x * y)) left right
  | divide => op.applyArithmetic (op.divideBy (· / ·)) left right
  | modulo => op.applyArithmetic (op.divideBy Number.remainder) left right

def decidedBy? (op : BinaryOp) (left : Value) : Option Value :=
  match op with
  | or => if left.isTruthy then some (.bool true) else none
  | and => if left.isTruthy then none else some (.bool false)
  | _ => none

end BinaryOp

def UnaryOp.apply (op : UnaryOp) (operand : Value) : Except Fault Value :=
  match op, operand with
  | not, value => .ok (.bool !value.isTruthy)
  | negate, .number x => .ok (.number (-x))
  | negate, found => .error (.typeMismatch (.unary negate) .number found)

/-- A call with the values of its arguments. `print` prints them on one line with a space between
each two and returns the first, or the empty text if there is none; `str` returns the text that its
only argument shows as. -/
def Builtin.apply (function : Builtin) (arguments : List Value) : Printing Value :=
  match function, arguments with
  | print, arguments => do
    Printing.print (" ".intercalate (arguments.map Value.display))
    pure (arguments.headD (.text ""))
  | str, [only] => pure (.text only.display)
  | str, arguments => .fail (.argumentCount str 1 arguments.length)

namespace Expr

mutual

def eval (environment : Environment) : Expr → Printing Trace
  | literal value => pure (.literal value)
  | var name =>
    match environment.get? name with
    | some value => pure (.var name value)
    | none => .fail (.undefinedVariable name)
  | unary op operand => do
    let child ← operand.eval environment
    let outcome ← .ofExcept (op.apply child.outcome)
    pure (.unary op.symbol child outcome)
  | binary op left right => do
    let first ← left.eval environment
    match op.decidedBy? first.outcome with
    | some outcome => pure (.binary op.symbol first .skipped outcome)
    | none =>
      let second ← right.eval environment
      let outcome ← .ofExcept (op.apply first.outcome second.outcome)
      pure (.binary op.symbol first second outcome)
  | call function arguments => do
    let traces ← evalAll environment arguments
    let outcome ← function.apply (traces.map Trace.outcome)
    pure (.call function.name traces outcome)

def evalAll (environment : Environment) : List Expr → Printing (List Trace)
  | [] => pure []
  | argument :: rest => do
    let first ← argument.eval environment
    let others ← evalAll environment rest
    pure (first :: others)

end

end Expr

/-- Executes a statement; the environment changes only if there is no fault. -/
def Statement.exec (environment : Environment) (statement : Statement) : Printing Environment := do
  let trace ← statement.expr.eval environment
  match statement.target? with
  | some name => pure (environment.set name trace.outcome)
  | none => pure environment

structure Execution (α : Type) where
  environment : Environment
  lines : List String
  result : Except Fault α

namespace Body

/-- Reads and executes statements in turn, each with the variables that those before it have set. -/
def execChunks (environment : Environment) : List (List Token) → Execution Unit
  | [] => ⟨environment, [], .ok ()⟩
  | chunk :: rest =>
    match Statement.ofTokens chunk with
    | .error error => ⟨environment, [], .error (.unreadable error)⟩
    | .ok statement =>
      let step := statement.exec environment
      match step.result with
      | .error fault => ⟨environment, step.lines, .error fault⟩
      | .ok changed =>
        let others := execChunks changed rest
        { others with lines := step.lines ++ others.lines }

def exec (environment : Environment) (body : String) : Execution Nat :=
  match Statement.split body with
  | .error error => ⟨environment, [], .error (.unreadable error)⟩
  | .ok chunks =>
    let run := execChunks environment chunks
    { run with result := run.result.map fun _ => chunks.length }

def condition (environment : Environment) (body : String) : Printing Trace :=
  match Expr.parse body with
  | .error error => .fail (.unreadable error)
  | .ok expr => expr.eval environment

end Body

end Flowchart
