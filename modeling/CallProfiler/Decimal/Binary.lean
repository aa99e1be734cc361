import CallProfiler.Width

/-!
# Binary numbers

A finite floating-point number is an integer significand times a power of two, with a sign.
Decimal texts are computed from that exact value, never from rounded steps.
-/

namespace CallProfiler.Decimal

/-- A one followed by zeros. -/
def tens (zeros : Nat) : Nat := Nat.pow 10 zeros

/-- A finite number `significand * 2 ^ exponent`, with a sign that zero has too. -/
structure Binary where
  negative : Bool
  significand : Nat
  exponent : Int
deriving DecidableEq, Repr

namespace Binary

/-- The number of a double's bits; none for infinities and for what is no number. -/
def ofBits? (bits : UInt64) : Option Binary :=
  let pattern := bits.toNat
  let negative := pattern / Width.bound 63 % 2 == 1
  let scale : Nat := pattern / Width.bound 52 % Width.bound 11
  let fraction : Nat := pattern % Width.bound 52
  if scale = 2047 then none
  else if scale = 0 then some ⟨negative, fraction, -1074⟩
  else some ⟨negative, Width.bound 52 + fraction, (scale : Int) - 1075⟩

/-- Numerator and denominator of the size of a number. -/
def ratio (number : Binary) : Nat × Nat :=
  (number.significand <<< number.exponent.toNat, 1 <<< (-number.exponent).toNat)

end Binary

end CallProfiler.Decimal
