import FrontEnd.Binary64.Decimal

/-!
# Elapsed time

How long a compilation took is measured in milliseconds and told in seconds.  The seconds are a 64-bit
real, so that of a very long time only the leading digits are right.
-/

namespace FrontEnd.Elapsed

/-- A time in seconds: the whole seconds and the rest are rounded each for itself, and then their
sum. -/
def seconds (milliseconds : Nat) : Binary64 :=
  (Binary64.ofRatio false (milliseconds / 1000) 1).addMagnitudes
    (Binary64.ofRatio false (milliseconds % 1000) 1000)

/-- A time in seconds, with the given number of decimal places. -/
def text (places milliseconds : Nat) : String :=
  (seconds milliseconds).fixedText places

end FrontEnd.Elapsed
