import Flowchart.Number.Binary

/-!
The remainder of a division that truncates its quotient: what is left of the dividend, with its
sign. The remainder of two finite numbers is a number itself, so nothing is rounded.
-/

namespace Flowchart.Number

/-- The remainder of `x` by `y`; there is none of an infinite dividend or by zero. -/
def remainder (x y : Float) : Float :=
  if x.isNaN || y.isNaN || x.isInf || patternOf y = 0 then 0.0 / 0.0
  else if y.isInf then x
  else ofPattern (isNegative x) (nearest (units (patternOf x) % units (patternOf y)) unitsPerOne)

end Flowchart.Number
