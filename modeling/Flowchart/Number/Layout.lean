import Flowchart.Number.Shortest

/-!
How a number is written down: the digits of its shortest decimal, laid out with a point, zeros or an
exponent as one record decides for each format.
-/

namespace Flowchart.Number

structure Layout where
  /-- The neighbour chosen between two equally close decimals. -/
  tie : Tie
  /-- Whether a number is written without an exponent, by the power of ten of its first digit. -/
  isPositional : Int → Bool
  /-- What follows a whole number. -/
  wholeMark : String
  /-- Whether a negative zero keeps its sign. -/
  signsZero : Bool

/-- Digits with the point where `exponent` puts it, padded with zeros up to the point. -/
def positional (wholeMark : String) (digits : String) (exponent : Int) : String :=
  let places := (-exponent).toNat
  if 0 ≤ exponent then digits ++ String.ofList (List.replicate exponent.toNat '0') ++ wholeMark
  else if places < digits.length then
    let (whole, fraction) := digits.toList.splitAt (digits.length - places)
    String.ofList whole ++ "." ++ String.ofList fraction
  else "0." ++ String.ofList (List.replicate (places - digits.length) '0') ++ digits

def scientific (digits : String) (leading : Int) : String :=
  let mantissa := match digits.toList with
    | first :: second :: rest => String.ofList (first :: '.' :: second :: rest)
    | short => String.ofList short
  mantissa ++ (if leading < 0 then "e-" else "e+") ++ leading.natAbs.repr

def Layout.writeMagnitude (layout : Layout) (pattern : Nat) : String :=
  let decimal := shortest layout.tie pattern
  let digits := decimal.coefficient.repr
  let leading := decimal.exponent + digits.length - 1
  if layout.isPositional leading then positional layout.wholeMark digits decimal.exponent
  else scientific digits leading

def Layout.write (layout : Layout) (x : Float) : String :=
  let pattern := patternOf x
  let magnitude := layout.writeMagnitude pattern
  if isNegative x && (pattern != 0 || layout.signsZero) then "-" ++ magnitude else magnitude

end Flowchart.Number
