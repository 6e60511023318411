import Mathlib.Data.Int.Log
import Mathlib.Data.Rat.Floor

/-!
# Rounding to a double

`round x` is the double nearest to the rational number `x`, ties going to the even significand, with
the exponents of doubles below and without a bound above: where a double would be infinite it is a
large number.
-/

namespace Tunnet.Double

open Int

/-- The nearest integer, and the even one of two. -/
def nearestEven (x : ℚ) : ℤ :=
  if x - ⌊x⌋ < 1 / 2 ∨ x - ⌊x⌋ = 1 / 2 ∧ ⌊x⌋ % 2 = 0 then ⌊x⌋ else ⌊x⌋ + 1

/-- The exponent of the last place of a double near `x`. -/
def lastPlace (x : ℚ) : ℤ := max (Int.log 2 |x| - 52) (-1074)

/-- The double nearest to `x`. -/
def round (x : ℚ) : ℚ := nearestEven (x / 2 ^ lastPlace x) * 2 ^ lastPlace x

/-- The integer that `x` is rounded to, if `Number.isSafeInteger` holds of it. -/
def safeInteger (x : ℚ) : Option ℤ :=
  if (round x).den = 1 ∧ |(round x).num| < 2 ^ 53 then some (round x).num else none

/-! ### The nearest integer -/

end Tunnet.Double
