import FrontEnd.Binary64.Rounding

/-!
# Reals in decimal

Reading a real from decimal digits, and writing it in the fewest digits that read back.

A text denotes a real if it is an optional sign followed by digits with at most one decimal point and
an optional exponent, or by one of the words for infinity and for no number in any case.  What is read
is the nearest 64-bit number.

What is written are the digits of the point nearest to the number on the coarsest decimal grid that
has a point reading back as it.  The digits are laid out with a decimal point and zeros and never with
an exponent; a whole number has no decimal point.  Where the number of decimal places is given, the
digits are those of the nearest point on that grid instead.
-/

namespace FrontEnd.Binary64

/-! ## Reading -/

/-- The number that a list of decimal digits denotes. -/
def digitsValue (digits : List Char) : Nat :=
  digits.foldl (fun value digit => 10 * value + (digit.toNat - '0'.toNat)) 0

/-- The nearest real to `digits * 10 ^ exponent`.  Beyond the range of the format the power of ten is
never built. -/
def ofDecimal (negative : Bool) (digits : Nat) (exponent : Int) : Binary64 :=
  if digits = 0 then ofMagnitude negative 0
  else
    let magnitude := ((toString digits).length : Int) + exponent
    if 310 < magnitude then infinity negative
    else if magnitude < -330 then ofMagnitude negative 0
    else ofRatio negative (digits * powerOfTen exponent.toNat) (powerOfTen (-exponent).toNat)

/-- The exponent after its letter: an optional sign and at least one digit, and nothing else. -/
def readExponent? (text : List Char) : Option Int :=
  let (negative, digits) :=
    match text with
    | '-' :: rest => (true, rest)
    | '+' :: rest => (false, rest)
    | _ => (false, text)
  if digits.isEmpty || !digits.all Char.isDigit then none
  else some (if negative then -(digitsValue digits : Int) else digitsValue digits)

/-- An unsigned real: digits, perhaps a point and more digits, perhaps an exponent. -/
def readUnsigned? (negative : Bool) (text : List Char) : Option Binary64 :=
  let whole := text.takeWhile Char.isDigit
  let afterWhole := text.dropWhile Char.isDigit
  let (fraction, afterFraction) :=
    match afterWhole with
    | '.' :: rest => (rest.takeWhile Char.isDigit, rest.dropWhile Char.isDigit)
    | _ => ([], afterWhole)
  let exponent :=
    match afterFraction with
    | [] => some 0
    | letter :: rest => if letter = 'e' || letter = 'E' then readExponent? rest else none
  if whole.isEmpty && fraction.isEmpty then none
  else
    exponent.map fun exponent =>
      ofDecimal negative (digitsValue (whole ++ fraction)) (exponent - fraction.length)

/-- The real that a text denotes, if it denotes one. -/
def ofText? (text : String) : Option Binary64 :=
  let (negative, unsigned) :=
    match text.toList with
    | '-' :: rest => (true, rest)
    | '+' :: rest => (false, rest)
    | characters => (false, characters)
  let word := String.ofList (unsigned.map Char.toLower)
  if word = "inf" || word = "infinity" then some (infinity negative)
  else if word = "nan" then some nan
  else readUnsigned? negative unsigned

/-! ## Writing -/

/-- A decimal number: `digits * 10 ^ exponent`. -/
structure Digits where
  digits : Nat
  exponent : Int

/-- The point of the grid of step `10 ^ exponent` that is nearest to `mantissa * 2 ^ power`, if it
or its neighbour reads back as that number.  The numbers that read back lie between half a step of
the format below and half a step above, the ends included for an even mantissa; the step below is
half as long under a power of two.  Of two points equally near, the larger is taken. -/
def onGrid? (mantissa : Nat) (power : Int) (atPowerOfTwo : Bool) (exponent : Int) : Option Digits :=
  let quarters := powerOfTwo (power - 2).toNat * powerOfTen (-exponent).toNat
  let step := powerOfTen exponent.toNat * powerOfTwo (2 - power).toNat
  let value := 4 * mantissa * quarters
  let low := (4 * mantissa - if atPowerOfTwo then 1 else 2) * quarters
  let high := (4 * mantissa + 2) * quarters
  let readsBack (point : Nat) : Bool :=
    if mantissa % 2 = 0 then decide (low ≤ point * step) && decide (point * step ≤ high)
    else decide (low < point * step) && decide (point * step < high)
  let below := value / step
  match readsBack below, readsBack (below + 1) with
  | true, true => some ⟨if 2 * (value % step) < step then below else below + 1, exponent⟩
  | true, false => some ⟨below, exponent⟩
  | false, true => some ⟨below + 1, exponent⟩
  | false, false => none

/-- The first grid with a point that reads back, from the step `10 ^ exponent` downwards. -/
def coarsest (mantissa : Nat) (power : Int) (atPowerOfTwo : Bool) : Nat → Int → Digits
  | 0, exponent => ⟨0, exponent⟩
  | steps + 1, exponent =>
    match onGrid? mantissa power atPowerOfTwo exponent with
    | some found => found
    | none => coarsest mantissa power atPowerOfTwo steps (exponent - 1)

/-- The fewest digits that read back as a finite positive number.  No grid coarser than the number
itself, and none finer than `10 ^ -344`, has to be tried. -/
def shortest (x : Binary64) : Digits :=
  let whole := x.mantissa * powerOfTwo x.exponent.toNat / powerOfTwo (-x.exponent).toNat
  let start := (toString whole).length
  coarsest x.mantissa x.exponent (x.mantissa = powerOfTwo 52 && 1 < x.exponentField) (start + 345) start

/-- Digits laid out without an exponent. -/
def Digits.layout (number : Digits) : String :=
  let digits := (toString number.digits).toList
  let places := (-number.exponent).toNat
  let characters :=
    if places = 0 then digits ++ List.replicate number.exponent.toNat '0'
    else if places < digits.length then
      digits.take (digits.length - places) ++ ['.'] ++ digits.drop (digits.length - places)
    else ['0', '.'] ++ List.replicate (places - digits.length) '0' ++ digits
  String.ofList characters

/-- The text of a real. -/
def text (x : Binary64) : String :=
  if x.isNaN then "NaN"
  else
    let magnitude :=
      if x.isFinite then (if x.magnitude = 0 then "0" else x.shortest.layout) else "inf"
    if x.isNegative then "-" ++ magnitude else magnitude

/-- The magnitude of a finite number with the given number of decimal places.  Of two texts equally
near, the one that ends in an even digit is taken. -/
def fixedText (places : Nat) (x : Binary64) : String :=
  let (numerator, denominator) := scaledByTwo (x.mantissa * powerOfTen places) 1 x.exponent
  Digits.layout ⟨nearestEven numerator denominator, -(places : Int)⟩

end FrontEnd.Binary64
