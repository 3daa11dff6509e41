import Flowchart.Number.Decimal

/-!
The shortest decimal of a number: of the decimals that are read back as the number, one with the
fewest digits, and of these the one closest to it. A grid is the set of multiples of one power of
ten; when any of its points is read back as the number, so is one of the two neighbours of the
number on it.
-/

namespace Flowchart.Number

/-- Which neighbour is taken when a number lies halfway between two on its grid. -/
inductive Tie where
  | upward
  | toEven
  deriving DecidableEq, Repr

/-- The quotient by a power of ten of `pattern`'s magnitude, as a fraction of naturals. -/
def gridFraction (pattern : Nat) : Int → Nat × Nat
  | .ofNat up => (units pattern, unitsPerOne * Nat.pow 10 up)
  | .negSucc less => (units pattern * Nat.pow 10 (less + 1), unitsPerOne)

def Tie.choosesUpper (tie : Tie) (num den : Nat) : Bool :=
  let twice := 2 * (num % den)
  match tie with
  | .upward => den ≤ twice
  | .toEven => den < twice || (den = twice && (num / den) % 2 = 1)

/-- The neighbour of a number on the grid of `10 ^ exponent` that is read back as the number. -/
def onGrid? (tie : Tie) (pattern : Nat) (exponent : Int) : Option Decimal :=
  let (num, den) := gridFraction pattern exponent
  let lower : Decimal := ⟨num / den, exponent⟩
  let upper : Decimal := ⟨num / den + 1, exponent⟩
  if lower.pattern = pattern then
    if upper.pattern = pattern && tie.choosesUpper num den then some upper else some lower
  else if upper.pattern = pattern then some upper
  else none

def exactDecimal (pattern : Nat) : Decimal := ⟨units pattern * Nat.pow 5 1074, -1074⟩

def ceilingExponent (pattern : Nat) : Int :=
  ((units pattern * Nat.pow 10 324 / unitsPerOne).repr.length : Int) - 324

/-- The shortest decimal of the number with this pattern, searched from the power of ten above it
down to the seventeenth digit, where every number is found. -/
def shortest (tie : Tie) (pattern : Nat) : Decimal :=
  if pattern = 0 then ⟨0, 0⟩
  else
    let top := ceilingExponent pattern
    ((List.range 18).findSome? fun (digits : Nat) => onGrid? tie pattern (top - digits)).getD
      (exactDecimal pattern)

end Flowchart.Number
