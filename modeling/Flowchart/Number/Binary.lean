/-!
Floating-point numbers as their bit patterns. Without its sign, a finite number is a whole multiple
of the smallest positive one, `2 ^ -1074`, and the patterns of finite numbers are ordered like their
values. `nearest` rounds a quotient of naturals to the pattern of the closest number, a tie going to
the even pattern.
-/

namespace Flowchart.Number

/-- The smallest positive number fits this many times into one. -/
def unitsPerOne : Nat := Nat.pow 2 1074

def infinityPattern : Nat := 2047 * Nat.pow 2 52

def patternOf (x : Float) : Nat := x.toBits.toNat % Nat.pow 2 63

/-- A number carries a minus sign also when it is a zero. -/
def isNegative (x : Float) : Bool := Nat.pow 2 63 ≤ x.toBits.toNat

def ofPattern (negative : Bool) (pattern : Nat) : Float :=
  Float.ofBits (UInt64.ofNat (if negative then Nat.pow 2 63 + pattern else pattern))

/-- The magnitude of the finite number with this pattern, counted in smallest positive numbers. -/
def units (pattern : Nat) : Nat :=
  let binade := Nat.pow 2 52
  if pattern < binade then pattern
  else (binade + pattern % binade) * Nat.pow 2 (pattern / binade - 1)

/-- The natural number closest to `num / den`; a tie goes to the even neighbour. -/
def roundQuotient (num den : Nat) : Nat :=
  let quotient := num / den
  let twice := 2 * (num % den)
  if twice < den then quotient
  else if den < twice then quotient + 1
  else quotient + quotient % 2

/-- The pattern closest to `num / den`. Patterns count upwards through each binade in steps of
`2 ^ shift` units, so a significand rounded up to the next power of two carries into the next binade
by itself. -/
def nearest (num den : Nat) : Nat :=
  let scaled := num * unitsPerOne
  let shift := (scaled / den).log2 - 52
  min infinityPattern (shift * Nat.pow 2 52 + roundQuotient scaled (den * Nat.pow 2 shift))

end Flowchart.Number
