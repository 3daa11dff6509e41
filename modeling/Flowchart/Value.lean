import Flowchart.Number.Layout
import Flowchart.Text.Blank
import Flowchart.Text.Quoted

/-!
Values: what variables hold and what expressions evaluate to.
-/

namespace Flowchart

inductive Value where
  | number (x : Float)
  | text (s : String)
  | bool (b : Bool)
  deriving DecidableEq

namespace Value

def typeName : Value → String
  | number _ => "Number"
  | text _ => "Text"
  | bool _ => "Bool"

/-- Numbers other than zero and NaN, texts that are not empty, and `true`. -/
def isTruthy : Value → Bool
  | number x => x != 0.0 && !x.isNaN
  | text s => !s.isEmpty
  | bool b => b

/-- Numbers are shown by the shortest decimal that reads back, of two equally close ones the
greater, never with an exponent, without a point on whole numbers, and with no sign on zero. -/
def numberLayout : Number.Layout where
  tie := .upward
  isPositional _ := true
  wholeMark := ""
  signsZero := false

def displayNumber (x : Float) : String :=
  if x.isNaN then "NaN"
  else if x.isInf then (if Number.isNegative x then "-inf" else "inf")
  else numberLayout.write x

def display : Value → String
  | number x => displayNumber x
  | text s => s
  | bool b => if b then "true" else "false"

/-- A value as it stands in an expression: a text is quoted, so that it differs from a name. -/
def literal : Value → String
  | text s => Text.quoted s
  | value => value.display

/-- Equality of the language: numbers are compared as numbers, so that NaN differs from itself and
the zeros are equal, and values of different types differ. -/
def equals : Value → Value → Bool
  | number x, number y => x == y
  | text s, text t => s == t
  | bool a, bool b => a == b
  | _, _ => false

/-- What the user typed: a number if, without the blanks around it, it reads as a decimal with a
finite value, and otherwise the text just as it was typed. -/
def ofInput (raw : String) : Value :=
  match Number.readDecimal? (Text.trimChars raw.toList) with
  | none => text raw
  | some (negative, decimal) =>
    let x := decimal.toFloat negative
    if x.isFinite then number x else text raw

end Value

end Flowchart
