import CallProfiler.Width

/-!
# Numerals

Reading integers of a fixed range, digit by digit from the left, and writing naturals.
A plus sign is allowed; a minus sign only where the range reaches below zero. Only ASCII
digits count, and the first fault met from the left is the one reported.
-/

namespace CallProfiler.Text

/-- Why a text is no numeral of the wanted range. -/
inductive NumeralProblem where
  | empty
  | invalidDigit
  | tooLarge
  | tooSmall
deriving DecidableEq, Repr

/-- The wording of a numeral problem. -/
def NumeralProblem.message : NumeralProblem → String
  | .empty => "cannot parse integer from empty string"
  | .invalidDigit => "invalid digit found in string"
  | .tooLarge => "number too large to fit in target type"
  | .tooSmall => "number too small to fit in target type"

/-- The value of a digit in a base up to sixteen. -/
def digitValue? (base : Nat) (letter : Char) : Option Nat :=
  let value? :=
    if '0' ≤ letter ∧ letter ≤ '9' then some (letter.toNat - '0'.toNat)
    else if 'a' ≤ letter ∧ letter ≤ 'f' then some (letter.toNat - 'a'.toNat + 10)
    else if 'A' ≤ letter ∧ letter ≤ 'F' then some (letter.toNat - 'A'.toNat + 10)
    else none
  value?.filter (· < base)

/-- Read the digits left of the end onto `value`, staying below `limit`. -/
def readDigits (base limit : Nat) (beyond : NumeralProblem) (value : Nat) :
    List Char → Except NumeralProblem Nat
  | [] => .ok value
  | letter :: rest =>
    match digitValue? base letter with
    | none => .error .invalidDigit
    | some digit =>
      let next := value * base + digit
      if next < limit then readDigits base limit beyond next rest else .error beyond

/-- Read an unsigned number of `width` bits. -/
def readNat (base width : Nat) (word : List Char) : Except NumeralProblem Nat :=
  match word with
  | [] => .error .empty
  | ['+'] => .error .invalidDigit
  | '+' :: digits => readDigits base (Width.bound width) .tooLarge 0 digits
  | digits => readDigits base (Width.bound width) .tooLarge 0 digits

/-- Read a signed number of `width` bits, in decimal. -/
def readInt (width : Nat) (word : List Char) : Except NumeralProblem Int :=
  match word with
  | [] => .error .empty
  | ['+'] => .error .invalidDigit
  | ['-'] => .error .invalidDigit
  | '+' :: digits => (readDigits 10 (Width.bound (width - 1)) .tooLarge 0 digits).map Int.ofNat
  | '-' :: digits =>
    (readDigits 10 (Width.bound (width - 1) + 1) .tooSmall 0 digits).map fun size => -Int.ofNat size
  | digits => (readDigits 10 (Width.bound (width - 1)) .tooLarge 0 digits).map Int.ofNat

/-- Decimal digits of a natural number, without leading zeros. -/
def decimal (value : Nat) : List Char := Nat.toDigits 10 value

/-- Decimal digits of an integer, with a minus sign below zero. -/
def signedDecimal (value : Int) : List Char :=
  if value < 0 then '-' :: decimal value.natAbs else decimal value.natAbs

/-- Hexadecimal digits in lower case, without leading zeros. -/
def hexadecimal (value : Nat) : List Char := Nat.toDigits 16 value

end CallProfiler.Text
