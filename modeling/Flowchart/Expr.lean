import Flowchart.Value

/-!
Expressions of the body language and the statements made of them.
-/

namespace Flowchart

inductive BinaryOp where
  | or | and
  | equal | notEqual
  | less | lessEqual | greater | greaterEqual
  | add | subtract
  | multiply | divide | modulo
  deriving DecidableEq, Repr

namespace BinaryOp

def all : List BinaryOp :=
  [or, and, equal, notEqual, less, lessEqual, greater, greaterEqual, add, subtract,
   multiply, divide, modulo]

/-- How tightly an operator binds its operands, from 1 for the loosest. -/
def precedence : BinaryOp → Nat
  | or => 1
  | and => 2
  | equal | notEqual => 3
  | less | lessEqual | greater | greaterEqual => 4
  | add | subtract => 5
  | multiply | divide | modulo => 6

def symbol : BinaryOp → String
  | or => "||"
  | and => "&&"
  | equal => "=="
  | notEqual => "!="
  | less => "<"
  | lessEqual => "<="
  | greater => ">"
  | greaterEqual => ">="
  | add => "+"
  | subtract => "-"
  | multiply => "*"
  | divide => "/"
  | modulo => "%"

def ofSymbol? (symbol : String) : Option BinaryOp := all.find? (·.symbol = symbol)

end BinaryOp

inductive UnaryOp where
  | negate
  | not
  deriving DecidableEq, Repr

def UnaryOp.symbol : UnaryOp → String
  | negate => "-"
  | not => "!"

inductive Builtin where
  | print
  | str
  deriving DecidableEq, Repr

def Builtin.name : Builtin → String
  | print => "print"
  | str => "str"

def Builtin.ofName? (name : String) : Option Builtin :=
  if name = "print" then some print
  else if name = "str" then some str
  else none

inductive Expr where
  | literal (value : Value)
  | var (name : String)
  | unary (op : UnaryOp) (operand : Expr)
  | binary (op : BinaryOp) (left right : Expr)
  | call (function : Builtin) (arguments : List Expr)

mutual

def Expr.decEq : (left right : Expr) → Decidable (left = right)
  | .literal a, .literal b => decidable_of_iff (a = b) (by simp)
  | .var a, .var b => decidable_of_iff (a = b) (by simp)
  | .unary o a, .unary p b =>
    have := Expr.decEq a b
    decidable_of_iff (o = p ∧ a = b) (by simp)
  | .binary o a c, .binary p b d =>
    have := Expr.decEq a b
    have := Expr.decEq c d
    decidable_of_iff (o = p ∧ a = b ∧ c = d) (by simp)
  | .call f a, .call g b =>
    have := Expr.decEqAll a b
    decidable_of_iff (f = g ∧ a = b) (by simp)
  | .literal _, .var _ | .literal _, .unary _ _ | .literal _, .binary _ _ _ | .literal _, .call _ _
  | .var _, .literal _ | .var _, .unary _ _ | .var _, .binary _ _ _ | .var _, .call _ _
  | .unary _ _, .literal _ | .unary _ _, .var _ | .unary _ _, .binary _ _ _ | .unary _ _, .call _ _
  | .binary _ _ _, .literal _ | .binary _ _ _, .var _ | .binary _ _ _, .unary _ _
  | .binary _ _ _, .call _ _ | .call _ _, .literal _ | .call _ _, .var _ | .call _ _, .unary _ _
  | .call _ _, .binary _ _ _ => isFalse nofun

def Expr.decEqAll : (left right : List Expr) → Decidable (left = right)
  | [], [] => isTrue rfl
  | a :: as, b :: bs =>
    have := Expr.decEq a b
    have := Expr.decEqAll as bs
    decidable_of_iff (a = b ∧ as = bs) (by simp)
  | [], _ :: _ | _ :: _, [] => isFalse nofun

end

instance : DecidableEq Expr := Expr.decEq

def unaryPrecedence : Nat := 7

def atomPrecedence : Nat := 8

namespace Expr

/-- How tightly the root of an expression holds together. -/
def precedence : Expr → Nat
  | literal _ | var _ | call _ _ => atomPrecedence
  | unary _ _ => unaryPrecedence
  | binary op _ _ => op.precedence

mutual

/-- The variables of an expression at each of their places, from left to right. -/
def mentions : Expr → List String
  | literal _ => []
  | var name => [name]
  | unary _ operand => operand.mentions
  | binary _ left right => left.mentions ++ right.mentions
  | call _ arguments => mentionsAll arguments

def mentionsAll : List Expr → List String
  | [] => []
  | argument :: rest => argument.mentions ++ mentionsAll rest

end

/-- The variables of an expression, each once, in the order of their first use. -/
def variableNames (expr : Expr) : List String := expr.mentions.eraseDups

mutual

def height : Expr → Nat
  | literal _ | var _ => 1
  | unary _ operand => operand.height + 1
  | binary _ left right => max left.height right.height + 1
  | call _ arguments => heightAll arguments + 1

def heightAll : List Expr → Nat
  | [] => 0
  | argument :: rest => max argument.height (heightAll rest)

end

end Expr

inductive Statement where
  | assign (target : String) (value : Expr)
  | eval (expr : Expr)
  deriving DecidableEq

namespace Statement

def expr : Statement → Expr
  | assign _ value => value
  | eval expr => expr

def target? : Statement → Option String
  | assign target _ => some target
  | eval _ => none

end Statement

end Flowchart
