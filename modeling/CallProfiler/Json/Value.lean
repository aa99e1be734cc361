import CallProfiler.Decimal.Shortest
import CallProfiler.Text.Numeral
import CallProfiler.Width

/-!
# JSON values

A value as its text gives it. Numbers keep their digits, so each reader of a number decides what
it accepts; objects keep the order of their fields and fields of one name. An escape may name
half of a surrogate pair; such a string has no content, which matters only to those who want it.
-/

namespace CallProfiler.Json

/-- A number by its digits. -/
structure Number where
  negative : Bool
  whole : List Char
  fraction : Option (List Char)
  exponent : Option Int
deriving DecidableEq, Repr

/-- A JSON value. -/
inductive Value where
  | null
  | bool (flag : Bool)
  | number (number : Number)
  | string (content : String)
  /-- A string whose escapes name half of a surrogate pair. -/
  | brokenString
  | array (items : List Value)
  /-- Fields in order; a name may be broken as a string may. -/
  | object (fields : List (Option String × Value))
deriving Repr

namespace Number

/-- A natural number in decimal. -/
def ofNat (value : Nat) : Number := ⟨false, Text.decimal value, none, none⟩

/-- An integer in decimal. -/
def ofInt (value : Int) : Number := ⟨value < 0, Text.decimal value.natAbs, none, none⟩

/-- Digits written positionally, with at least one on either side of the point, where the leading
digit stands between the sixteenth before the point and the fifth after it; otherwise one digit
before the point, and an exponent. -/
def ofDigits (negative : Bool) (value : Decimal.Digits) : Number :=
  let digits := Text.decimal value.digits
  let leading := value.exponent + digits.length - 1
  if leading < -5 ∨ 15 < leading then
    let later := digits.drop 1
    ⟨negative, digits.take 1, if later.isEmpty then none else some later, some leading⟩
  else if 0 ≤ value.exponent then
    ⟨negative, digits ++ List.replicate value.exponent.toNat '0', some ['0'], none⟩
  else
    let places := (-value.exponent).toNat
    let padded := List.replicate (places + 1 - digits.length) '0' ++ digits
    ⟨negative, padded.take (padded.length - places),
      some (padded.drop (padded.length - places)), none⟩

/-- The integer that a number without point and exponent stands for. A negative zero is none. -/
def toInt? (number : Number) : Option Int :=
  if number.fraction.isSome || number.exponent.isSome then none
  else
    let size := Nat.ofDigitChars 10 number.whole 0
    if number.negative then if size = 0 then none else some (-size) else some size

/-- Digits added to a significand of 64 bits as long as it has room: the significand, and how
many digits it took. -/
def gather (significand taken : Nat) : List Char → Nat × Nat
  | [] => (significand, taken)
  | digit :: rest =>
    let next := significand * 10 + (digit.toNat - '0'.toNat)
    if next < Width.bound 64 then gather next (taken + 1) rest else (significand, taken)

/-- A significand of 64 bits as a double, times a power of ten; none where the result is too
large. Up to the power 288 it never is. Powers below the range of doubles are applied in steps. -/
def shifted (value : Float) (exponent : Int) : Option Float :=
  if 308 < exponent then if value == 0.0 then some value else none
  else if 0 ≤ exponent then
    let result := value * Float.ofScientific 1 false exponent.toNat
    if 288 < exponent ∧ result.isInf then none else some result
  else if -308 ≤ exponent then some (value / Float.ofScientific 1 false (-exponent).toNat)
  else if value == 0.0 then some value
  else shifted (value / 1e308) (exponent + 308)
termination_by (-exponent).toNat
decreasing_by omega

/-- The double of a number: the digits that fit 64 bits, scaled by their power of ten. -/
def toDouble? (number : Number) : Option Float :=
  let (whole, taken) := gather 0 0 number.whole
  let (significand, places) := gather whole 0 (number.fraction.getD [])
  let exponent : Int := (number.whole.length - taken : Nat) - places + number.exponent.getD 0
  (shifted significand.toUInt64.toFloat exponent).map fun size =>
    if number.negative then -size else size

end Number

namespace Value

def ofNat (value : Nat) : Value := .number (.ofNat value)

def ofInt (value : Int) : Value := .number (.ofInt value)

/-- A double by its shortest digits; infinities and what is no number become null. -/
def ofDouble (value : Float) : Value :=
  match Decimal.Binary.ofBits? value.toBits with
  | none => .null
  | some binary =>
    if binary.significand = 0 then .number ⟨binary.negative, ['0'], some ['0'], none⟩
    else .number (.ofDigits binary.negative binary.shortest)

/-- An integer between two bounds, both included. -/
def integer? (low high : Int) : Value → Option Int
  | .number literal => literal.toInt?.filter fun value => low ≤ value ∧ value ≤ high
  | _ => none

/-- An unsigned number of `width` bits. -/
def unsigned? (width : Nat) (value : Value) : Option Nat :=
  (value.integer? 0 (Width.bound width - 1)).map Int.toNat

/-- A signed number of `width` bits. -/
def signed? (width : Nat) (value : Value) : Option Int :=
  value.integer? (-Width.bound (width - 1)) (Width.bound (width - 1) - 1)

def bool? : Value → Option Bool
  | .bool flag => some flag
  | _ => none

def string? : Value → Option String
  | .string content => some content
  | _ => none

def double? : Value → Option Float
  | .number literal => literal.toDouble?
  | _ => none

/-- The items of an array, each of them acceptable. -/
def list? {α : Type} (item? : Value → Option α) : Value → Option (List α)
  | .array items => items.mapM item?
  | _ => none

/-- The fields of a record, in the order of `names`: given by name, each once at most and others
ignored, or given by position. -/
def fields? (names : List String) : Value → Option (List (Option Value))
  | .object fields => do
    let named ← fields.mapM fun (name?, value) => name?.map fun name => (name, value)
    let known := (named.map (·.1)).filter fun name => names.contains name
    if known.Nodup then some (names.map fun name => named.lookup name) else none
  | .array items =>
    if items.length ≤ names.length then
      some (names.zipIdx.map fun (_, index) => items[index]?)
    else none
  | _ => none

end Value

end CallProfiler.Json
