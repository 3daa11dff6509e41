import Flowchart.Number.Binary

/-!
Decimals: a coefficient times a power of ten. A decimal text is read exactly, then rounded once to
the nearest floating-point number.
-/

namespace Flowchart.Number

/-- The non-negative number `coefficient * 10 ^ exponent`. -/
structure Decimal where
  coefficient : Nat
  exponent : Int
  deriving DecidableEq, Repr

def digitsValue (digits : List Char) : Nat :=
  digits.foldl (fun value digit => value * 10 + (digit.toNat - 48)) 0

def Decimal.ofDigits (whole fraction : List Char) : Decimal :=
  ⟨digitsValue (whole ++ fraction), -fraction.length⟩

/-- The pattern closest to a decimal. Exponents that put the decimal beyond the largest or below
half the smallest number are answered without computing the power, because `8 ^ n ≤ 10 ^ n`. -/
def Decimal.pattern (decimal : Decimal) : Nat :=
  let bits := decimal.coefficient.log2
  if decimal.coefficient = 0 then 0
  else match decimal.exponent with
    | .ofNat up =>
      if 1024 ≤ bits + 3 * up then infinityPattern
      else nearest (decimal.coefficient * Nat.pow 10 up) 1
    | .negSucc less =>
      if bits + 1076 ≤ 3 * (less + 1) then 0
      else nearest decimal.coefficient (Nat.pow 10 (less + 1))

def Decimal.toFloat (negative : Bool) (decimal : Decimal) : Float :=
  ofPattern negative decimal.pattern

def splitSign : List Char → Bool × List Char
  | '-' :: rest => (true, rest)
  | '+' :: rest => (false, rest)
  | rest => (false, rest)

def splitDigits (cs : List Char) : List Char × List Char :=
  (cs.takeWhile Char.isDigit, cs.dropWhile Char.isDigit)

/-- A power of ten written as `e`, an optional sign and at least one digit; nothing stands for
zero. -/
def readExponent? : List Char → Option Int
  | [] => some 0
  | mark :: rest =>
    if mark = 'e' || mark = 'E' then
      let (negative, digits) := splitSign rest
      if digits.isEmpty || !digits.all Char.isDigit then none
      else some (if negative then -(digitsValue digits : Int) else digitsValue digits)
    else none

def splitFraction : List Char → List Char × List Char
  | '.' :: rest => splitDigits rest
  | rest => ([], rest)

/-- A whole text read as a number: an optional sign, digits with an optional point and a digit on at
least one side of it, and an optional exponent. -/
def readDecimal? (cs : List Char) : Option (Bool × Decimal) :=
  let (negative, unsigned) := splitSign cs
  let (whole, afterWhole) := splitDigits unsigned
  let (fraction, afterFraction) := splitFraction afterWhole
  if whole.isEmpty && fraction.isEmpty then none
  else do
    let power ← readExponent? afterFraction
    let decimal := Decimal.ofDigits whole fraction
    some (negative, { decimal with exponent := decimal.exponent + power })

end Flowchart.Number
