import CallProfiler.Text.Numeral

/-!
# Reading decimal numbers

A decimal number has a sign if it wants one, digits with at most one point among or around
them, and an exponent if it wants one. The names of infinity and of what is no number are read
in any case of letters.
-/

namespace CallProfiler.Decimal

/-- The digits at the head of a text, and the text after them. -/
def digitsAhead (text : List Char) : List Char × List Char :=
  (text.takeWhile Char.isDigit, text.dropWhile Char.isDigit)

/-- The exponent that a text holds from its start to its end; no text means none. -/
def exponent? : List Char → Option Int
  | [] => some 0
  | mark :: rest =>
    let (negative, digits) := match rest with
      | '-' :: digits => (true, digits)
      | '+' :: digits => (false, digits)
      | digits => (false, digits)
    if (mark = 'e' ∨ mark = 'E') ∧ !digits.isEmpty ∧ digits.all Char.isDigit then
      let size : Int := Nat.ofDigitChars 10 digits 0
      some (if negative then -size else size)
    else none

/-- The double nearest to a significand times a power of ten. -/
def nearest (significand : Nat) (exponent : Int) : Float :=
  let size : Int := (Text.decimal significand).length
  if significand = 0 ∨ exponent + size < -400 then 0.0
  else if 400 < exponent + size then 1.0 / 0.0
  else Float.ofScientific significand (exponent < 0) exponent.natAbs

/-- The double of a text without a sign. -/
def readUnsigned? (text : List Char) : Option Float :=
  let word := String.ofList (text.map Char.toLower)
  if word = "inf" ∨ word = "infinity" then some (1.0 / 0.0)
  else if word = "nan" then some (0.0 / 0.0)
  else
    let (whole, rest) := digitsAhead text
    let (fraction, rest) := match rest with
      | '.' :: rest => digitsAhead rest
      | rest => ([], rest)
    if whole.isEmpty && fraction.isEmpty then none
    else (exponent? rest).map fun exponent =>
      nearest (Nat.ofDigitChars 10 (whole ++ fraction) 0) (exponent - fraction.length)

/-- The double of a text. -/
def read? : List Char → Option Float
  | '-' :: text => (readUnsigned? text).map fun value => -value
  | '+' :: text => readUnsigned? text
  | text => readUnsigned? text

end CallProfiler.Decimal
