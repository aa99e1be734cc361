import CallProfiler.Decimal.Binary

/-!
# Shortest digits

The shortest decimal of a double has the fewest digits that still read back as the same double,
and of those the digits nearest to its value. The reals that read back as a double form an
interval around it; digits are sought on ever finer decimal grids until one has a point in
that interval.
-/

namespace CallProfiler.Decimal

/-- The decimal number `digits * 10 ^ exponent`. -/
structure Digits where
  digits : Nat
  exponent : Int
deriving DecidableEq, Repr

/-- The interval of the reals that round to a positive number, in units of `2 ^ unit`. The ends
belong to it where the significand is even. -/
structure Interval where
  low : Nat
  centre : Nat
  high : Nat
  unit : Int
  closed : Bool
deriving DecidableEq, Repr

namespace Binary

/-- The interval around a positive number. Below a power of two the doubles lie closer. -/
def interval (number : Binary) : Interval :=
  let significand := number.significand
  let closer := significand = Width.bound 52 ∧ number.exponent > -1074
  { low := if closer then 4 * significand - 1 else 4 * significand - 2
    centre := 4 * significand
    high := 4 * significand + 2
    unit := number.exponent - 2
    closed := significand % 2 = 0 }

end Binary

namespace Interval

/-- Compare `count * 10 ^ exponent` with `bound * 2 ^ unit`, both as whole numbers of one
common unit. -/
def scaledPair (count : Nat) (exponent : Int) (bound : Nat) (unit : Int) : Nat × Nat :=
  ((count * tens exponent.toNat) <<< (-unit).toNat,
    (bound * tens (-exponent).toNat) <<< unit.toNat)

/-- Whether `count * 10 ^ exponent` reads back as the number. -/
def holds (interval : Interval) (exponent : Int) (count : Nat) : Bool :=
  let (low, lowBound) := scaledPair count exponent interval.low interval.unit
  let (high, highBound) := scaledPair count exponent interval.high interval.unit
  if interval.closed then lowBound ≤ low && high ≤ highBound
  else lowBound < low && high < highBound

/-- The grid point of this exponent that reads back, the nearer one if both neighbours do. -/
def gridPoint? (interval : Interval) (exponent : Int) : Option Nat :=
  let (step, centre) := scaledPair 1 exponent interval.centre interval.unit
  let below := centre / step
  let above := below + 1
  match interval.holds exponent below, interval.holds exponent above with
  | true, true =>
    let twice := 2 * (centre % step)
    if twice < step ∨ (twice = step ∧ below % 2 = 0) then some below else some above
  | true, false => some below
  | false, true => some above
  | false, false => none

/-- The first grid with a point that reads back, from this exponent downwards. -/
def search (interval : Interval) (exponent : Int) : Nat → Digits
  | 0 => ⟨interval.centre, 0⟩
  | steps + 1 =>
    match interval.gridPoint? exponent with
    | some digits => ⟨digits, exponent⟩
    | none => search interval (exponent - 1) steps

end Interval

/-- An exponent whose grid is coarser than any positive number of this size. -/
def coarsestExponent (number : Binary) : Int :=
  ((Nat.log2 number.significand : Int) + 1 + number.exponent) * 30103 / 100000 + 1

/-- The fewest digits that read back as a positive number. -/
def Binary.shortest (number : Binary) : Digits :=
  number.interval.search (coarsestExponent number) 24

end CallProfiler.Decimal
