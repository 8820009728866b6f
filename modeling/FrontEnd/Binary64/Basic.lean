/-!
# Reals in 64 bits

A real literal denotes a floating-point number of the 64-bit binary format: a sign bit, an exponent
field of eleven bits and a fraction of fifty-two.  A finite number is `mantissa * 2 ^ exponent`, with
its sign; the largest exponent field is kept for the infinities and for the values that are no
number.

Two reals are equal here when their bits are, so that `-0` differs from `0`.
-/

namespace FrontEnd

/-- A floating-point number of the 64-bit binary format, as its bits. -/
structure Binary64 where
  bits : UInt64
deriving DecidableEq, Repr

namespace Binary64

/-- A power of two. -/
def powerOfTwo (exponent : Nat) : Nat := Nat.pow 2 exponent

/-- A power of ten. -/
def powerOfTen (exponent : Nat) : Nat := Nat.pow 10 exponent

/-- The number whose magnitude has the given bits. -/
def ofMagnitude (negative : Bool) (magnitude : Nat) : Binary64 :=
  ⟨UInt64.ofNat (magnitude + if negative then powerOfTwo 63 else 0)⟩

/-- Whether the sign bit is set. -/
def isNegative (x : Binary64) : Bool :=
  decide (powerOfTwo 63 ≤ x.bits.toNat)

/-- All bits but the sign. -/
def magnitude (x : Binary64) : Nat :=
  x.bits.toNat % powerOfTwo 63

/-- The magnitude of an infinity: the largest exponent field and no fraction. -/
def infiniteMagnitude : Nat := 2047 * powerOfTwo 52

/-- Whether the number is neither infinite nor no number at all. -/
def isFinite (x : Binary64) : Bool :=
  decide (x.magnitude < infiniteMagnitude)

/-- Whether the value is one of those that stand for no number. -/
def isNaN (x : Binary64) : Bool :=
  decide (infiniteMagnitude < x.magnitude)

/-- The number with its sign changed. -/
def negate (x : Binary64) : Binary64 :=
  ofMagnitude (!x.isNegative) x.magnitude

/-- The exponent field. -/
def exponentField (x : Binary64) : Nat :=
  x.magnitude / powerOfTwo 52

/-- The whole number that is scaled by a power of two; a leading one is implied unless the exponent
field is zero. -/
def mantissa (x : Binary64) : Nat :=
  if x.exponentField = 0 then x.magnitude else powerOfTwo 52 + x.magnitude % powerOfTwo 52

/-- The power of two by which the mantissa is scaled. -/
def exponent (x : Binary64) : Int :=
  max (x.exponentField : Int) 1 - 1075

/-- The infinity of the given sign. -/
def infinity (negative : Bool) : Binary64 :=
  ofMagnitude negative infiniteMagnitude

/-- A value that stands for no number. -/
def nan : Binary64 :=
  ofMagnitude false (infiniteMagnitude + powerOfTwo 51)

end Binary64

end FrontEnd
