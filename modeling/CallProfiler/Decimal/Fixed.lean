import CallProfiler.Decimal.Binary
import CallProfiler.Text.Numeral

/-!
# Fixed places

A number with a fixed count of decimal places is its exact value rounded to the nearest step,
a half going to the even neighbour. A negative number keeps its sign even where it rounds to
zero.
-/

namespace CallProfiler.Decimal

/-- The quotient of two naturals rounded to the nearest one, halves to the even one. -/
def roundedQuotient (numerator denominator : Nat) : Nat :=
  let quotient := numerator / denominator
  let twice := 2 * (numerator % denominator)
  if twice > denominator ∨ (twice = denominator ∧ quotient % 2 = 1) then quotient + 1
  else quotient

/-- The digits of `value` with a point before the last `places` of them. -/
def placed (places value : Nat) : List Char :=
  let digits := Text.decimal value
  let padded := List.replicate (places + 1 - digits.length) '0' ++ digits
  let whole := padded.length - places
  padded.take whole ++ '.' :: padded.drop whole

/-- The text of a number with `places` decimal places, at least one. -/
def Binary.fixed (places : Nat) (number : Binary) : List Char :=
  let (numerator, denominator) := number.ratio
  let text := placed places (roundedQuotient (numerator * tens places) denominator)
  if number.negative then '-' :: text else text

/-- The text of a double with `places` decimal places, at least one. -/
def fixed (places : Nat) (value : Float) : List Char :=
  match Binary.ofBits? value.toBits with
  | some number => number.fixed places
  | none => if value.isNaN then "NaN".toList else if value < 0 then "-inf".toList else "inf".toList

end CallProfiler.Decimal
