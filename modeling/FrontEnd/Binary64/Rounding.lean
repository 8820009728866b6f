import FrontEnd.Binary64.Basic

/-!
# Rounding to 64 bits

The nearest 64-bit number to a ratio of whole numbers.  A ratio half way between two neighbours goes
to the one with the even mantissa, and a ratio from half a step above the largest finite number
onwards becomes an infinity.

With the exponent chosen so that the mantissa has fifty-three bits, or the least exponent where that
is not possible, the bits of the result are `(exponent + 1074) * 2 ^ 52 + mantissa`: the leading bit
of the mantissa adds the one by which the exponent field of a normal number is larger, and a mantissa
that is rounded up to fifty-four bits carries into it.
-/

namespace FrontEnd.Binary64

/-- The nearest whole number to a ratio, a half going to the even neighbour. -/
def nearestEven (numerator denominator : Nat) : Nat :=
  let floor := numerator / denominator
  let twice := 2 * (numerator % denominator)
  if twice < denominator then floor
  else if denominator < twice then floor + 1
  else floor + floor % 2

/-- The ratio `numerator / denominator` multiplied by `2 ^ shift`, as a ratio of whole numbers. -/
def scaledByTwo (numerator denominator : Nat) (shift : Int) : Nat × Nat :=
  (numerator * powerOfTwo shift.toNat, denominator * powerOfTwo (-shift).toNat)

/-- The largest power of two, as an exponent, that is at most the ratio of two positive numbers. -/
def floorLog2 (numerator denominator : Nat) : Int :=
  let estimate : Int := (numerator.log2 : Int) - denominator.log2
  let scaled := scaledByTwo numerator denominator (-estimate)
  if scaled.1 < scaled.2 then estimate - 1 else estimate

/-- The 64-bit number nearest to `numerator / denominator`, with the given sign. -/
def ofRatio (negative : Bool) (numerator denominator : Nat) : Binary64 :=
  if numerator = 0 then ofMagnitude negative 0
  else
    let exponent := max (floorLog2 numerator denominator - 52) (-1074)
    let scaled := scaledByTwo numerator denominator (-exponent)
    let mantissa := nearestEven scaled.1 scaled.2
    ofMagnitude negative
      (min ((exponent + 1074).toNat * powerOfTwo 52 + mantissa) infiniteMagnitude)

/-- The nearest 64-bit number to the sum of the magnitudes of two finite numbers. -/
def addMagnitudes (x y : Binary64) : Binary64 :=
  let (numerator, denominator) := scaledByTwo x.mantissa 1 x.exponent
  let (otherNumerator, otherDenominator) := scaledByTwo y.mantissa 1 y.exponent
  ofRatio false (numerator * otherDenominator + otherNumerator * denominator)
    (denominator * otherDenominator)

end FrontEnd.Binary64
