import CallProfiler.Json.Reader
import CallProfiler.Json.Writer
import CallProfiler.Proofs.Decimal.Digits
import CallProfiler.Proofs.Text.Numeral

/-!
# Numbers read back

A number that is written by its digits is read back as these digits, if there are some on either
side of the point and no zero leads others (`readNumber_write`). Integers and doubles make such
numbers. An integer is then had back from its digits, and a double that is not too large gives
digits that make a double again, which need not be the same one.
-/

namespace CallProfiler.Json

/-- A row of digits, of which there is one at least. -/
structure IsRow (text : List Char) : Prop where
  nonempty : text ≠ []
  digits : ∀ letter ∈ text, letter.isDigit = true

/-- What may stand after digits: anything else, or nothing. -/
def EndsDigits (text : List Char) : Prop := ∀ letter ∈ text.head?, letter.isDigit = false

/-- What may stand after a number. -/
def EndsNumber (text : List Char) : Prop :=
  ∀ letter ∈ text.head?, letter.isDigit = false ∧ letter ≠ '.' ∧ letter ≠ 'e' ∧ letter ≠ 'E'

variable {digits text rest : List Char}

theorem isRow_decimal (value : Nat) : IsRow (Text.decimal value) :=
  ⟨Text.decimal_ne_nil value, fun _ member => Text.isDigit_of_mem_decimal member⟩

theorem isRow_zero : IsRow ['0'] := ⟨List.cons_ne_nil _ _, List.forall_mem_singleton.2 rfl⟩

theorem IsRow.of_subset (row : IsRow digits) (nonempty : text ≠ []) (part : text ⊆ digits) :
    IsRow text :=
  ⟨nonempty, fun letter member => row.digits letter (part member)⟩

theorem isDigit_of_mem_zeros {zeros : Nat} {letter : Char}
    (member : letter ∈ List.replicate zeros '0') : letter.isDigit = true := by
  rw [List.eq_of_mem_replicate member]
  rfl

theorem IsRow.append_zeros (row : IsRow digits) (zeros : Nat) :
    IsRow (digits ++ List.replicate zeros '0') :=
  ⟨List.append_ne_nil_of_left_ne_nil row.nonempty _, fun letter member =>
    (List.mem_append.1 member).elim (row.digits letter) isDigit_of_mem_zeros⟩

theorem IsRow.zeros_append (row : IsRow digits) (zeros : Nat) :
    IsRow (List.replicate zeros '0' ++ digits) :=
  ⟨List.append_ne_nil_of_right_ne_nil _ row.nonempty, fun letter member =>
    (List.mem_append.1 member).elim isDigit_of_mem_zeros (row.digits letter)⟩

theorem endsDigits_cons {letter : Char} (other : letter.isDigit = false) :
    EndsDigits (letter :: rest) := by
  rintro _ ⟨⟩
  exact other

theorem EndsNumber.endsDigits (ends : EndsNumber rest) : EndsDigits rest :=
  fun letter head => (ends letter head).1

theorem readDigits_append (row : IsRow digits) (ends : EndsDigits rest) :
    readDigits (digits ++ rest) = some (digits, rest) := by
  have stops : rest.takeWhile Char.isDigit = [] ∧ rest.dropWhile Char.isDigit = rest := by
    cases rest with
    | nil => exact ⟨rfl, rfl⟩
    | cons letter later =>
        have other := ends letter rfl
        exact ⟨List.takeWhile_cons_of_neg (by simp [other]),
          List.dropWhile_cons_of_neg (by simp [other])⟩
  rw [readDigits, List.takeWhile_append_of_pos row.digits, List.dropWhile_append_of_pos row.digits,
    stops.1, stops.2, List.append_nil]
  exact if_neg (by simp [row.nonempty])

namespace Number

variable {number : Number}

/-- What has to be written for a number to be read back: digits, and no zero before others. -/
structure WellFormed (number : Number) : Prop where
  whole : IsRow number.whole
  leading : number.whole.head? = some '0' → number.whole.length ≤ 1
  fraction : ∀ digits ∈ number.fraction, IsRow digits

/-! ## Texts -/

/-- The text of a fraction. -/
def fractionText : Option (List Char) → List Char
  | some digits => '.' :: digits
  | none => []

/-- The text of an exponent. -/
def exponentText : Option Int → List Char
  | some exponent => 'e' :: (if exponent < 0 then '-' else '+') :: Text.decimal exponent.natAbs
  | none => []

theorem write_eq (number : Number) :
    number.write = (if number.negative then ['-'] else []) ++ number.whole ++
      fractionText number.fraction ++ exponentText number.exponent := rfl

theorem ofDigitChars_decimal (value : Nat) : Nat.ofDigitChars 10 (Text.decimal value) 0 = value :=
  Nat.ofDigitChars_ten_toDigits

/-- The text of a number begins with a sign or a digit. -/
theorem WellFormed.exists_write_eq_cons (wellFormed : number.WellFormed) :
    ∃ letter rest, number.write = letter :: rest ∧ (letter = '-' ∨ letter.isDigit = true) := by
  obtain ⟨letter, later, whole⟩ := List.exists_cons_of_ne_nil wellFormed.whole.nonempty
  have digit : letter.isDigit = true :=
    wellFormed.whole.digits letter (whole ▸ List.mem_cons_self)
  rw [write_eq, whole]
  split
  · exact ⟨_, _, rfl, .inl rfl⟩
  · exact ⟨_, _, rfl, .inr digit⟩

theorem readExponentDigits_decimal {exponent : Int} (ends : EndsDigits rest) :
    readExponentDigits (exponent < 0) (Text.decimal exponent.natAbs ++ rest) =
      some (some exponent, rest) := by
  have size : (if decide (exponent < 0) = true then -(exponent.natAbs : Int)
      else (exponent.natAbs : Int)) = exponent := by
    simp only [decide_eq_true_eq]
    split <;> omega
  rw [readExponentDigits, readDigits_append (isRow_decimal _) ends]
  simp only [Option.map_some, ofDigitChars_decimal, size]

theorem readExponent_append (exponent : Option Int) (ends : EndsNumber rest) :
    readExponent (exponentText exponent ++ rest) = some (exponent, rest) := by
  cases exponent with
  | none =>
      cases rest with
      | nil => rfl
      | cons letter later =>
          obtain ⟨_, _, lower, upper⟩ := ends letter rfl
          exact if_neg (not_or.2 ⟨lower, upper⟩)
  | some exponent =>
      have digits := @readExponentDigits_decimal rest exponent ends.endsDigits
      rw [exponentText]
      split <;> rename_i negative
      · rw [decide_eq_true negative] at digits
        exact digits
      · rw [decide_eq_false negative] at digits
        exact digits

theorem readFraction_append {fraction : Option (List Char)} (ends : EndsDigits rest)
    (noPoint : ∀ letter ∈ rest.head?, letter ≠ '.') (row : ∀ digits ∈ fraction, IsRow digits) :
    readFraction (fractionText fraction ++ rest) = some (fraction, rest) := by
  cases fraction with
  | none =>
      rw [fractionText, List.nil_append, readFraction]
      rintro later rfl
      exact noPoint '.' rfl rfl
  | some digits =>
      rw [fractionText, List.cons_append, readFraction, readDigits_append (row digits rfl) ends]
      rfl

/-- A number is read back from its text, whatever comes after it that is no part of one. -/
theorem readNumber_write (wellFormed : number.WellFormed) (ends : EndsNumber rest) :
    readNumber (number.write ++ rest) = some (number, rest) := by
  obtain ⟨negative, whole, fraction, exponent⟩ := number
  obtain ⟨wholeRow, leading, fractionRow⟩ := wellFormed
  have afterFraction : EndsDigits (exponentText exponent ++ rest) ∧
      ∀ letter ∈ (exponentText exponent ++ rest).head?, letter ≠ '.' := by
    cases exponent with
    | none => exact ⟨ends.endsDigits, fun letter head => (ends letter head).2.1⟩
    | some exponent => exact ⟨endsDigits_cons rfl, by rintro _ ⟨⟩; decide⟩
  have afterWhole : EndsDigits (fractionText fraction ++ (exponentText exponent ++ rest)) := by
    cases fraction with
    | none => exact afterFraction.1
    | some digits => exact endsDigits_cons rfl
  have noZero : ¬ (whole.head? = some '0' ∧ whole.length > 1) :=
    fun ⟨zero, long⟩ => Nat.not_lt.2 (leading zero) long
  have noSign : ∀ text, whole ++ (fractionText fraction ++ (exponentText exponent ++ rest)) ≠
      '-' :: text := by
    intro text signed
    obtain ⟨letter, later, rfl⟩ := List.exists_cons_of_ne_nil wholeRow.nonempty
    have digit := wholeRow.digits letter List.mem_cons_self
    cases signed
    cases digit
  have digits := readDigits_append wholeRow afterWhole
  have fractionRead := readFraction_append afterFraction.1 afterFraction.2 fractionRow
  rw [write_eq, List.append_assoc, List.append_assoc, List.append_assoc]
  cases negative with
  | true =>
      show readNumber ('-' :: (whole ++ _)) = _
      simp only [readNumber, digits, if_neg noZero, fractionRead, readExponent_append exponent ends,
        Option.bind_eq_bind, Option.bind_some, Option.pure_def]
  | false =>
      show readNumber (whole ++ _) = _
      rw [readNumber]
      · simp only [digits, if_neg noZero, fractionRead, readExponent_append exponent ends,
          Option.bind_eq_bind, Option.bind_some, Option.pure_def]
      · exact noSign

/-! ## Integers -/

theorem head?_decimal_ne {value : Nat} (positive : 0 < value) :
    (Text.decimal value).head? ≠ some '0' := by
  induction value using Nat.strongRecOn with
  | ind value inductionHypothesis =>
      by_cases small : value < 10
      · have all : ∀ digit < 10, 0 < digit → digit.digitChar ≠ '0' := by decide
        rw [Text.decimal, Nat.toDigits_of_lt_base small]
        exact fun zero => all value small positive (Option.some.inj zero)
      · have leading := inductionHypothesis (value / 10) (by omega) (by omega)
        rw [Text.decimal] at leading ⊢
        rw [Nat.toDigits_of_base_le (by decide) (by omega), List.head?_append_of_ne_nil _
          Nat.toDigits_ne_nil]
        exact leading

theorem length_decimal_le_one {value : Nat} (zero : (Text.decimal value).head? = some '0') :
    (Text.decimal value).length ≤ 1 := by
  rcases Nat.eq_zero_or_pos value with rfl | positive
  · decide
  · exact absurd zero (head?_decimal_ne positive)

theorem wellFormed_ofNat (value : Nat) : (ofNat value).WellFormed :=
  ⟨isRow_decimal value, length_decimal_le_one, nofun⟩

theorem wellFormed_ofInt (value : Int) : (ofInt value).WellFormed :=
  ⟨isRow_decimal value.natAbs, length_decimal_le_one, nofun⟩

theorem toInt?_ofNat (value : Nat) : (ofNat value).toInt? = some (value : Int) := by
  simp [ofNat, toInt?, ofDigitChars_decimal]

theorem toInt?_ofInt (value : Int) : (ofInt value).toInt? = some value := by
  rw [toInt?, if_neg (by simp [ofInt])]
  simp only [ofInt, ofDigitChars_decimal, decide_eq_true_eq]
  split
  · rw [if_neg (by omega)]
    congr 1
    omega
  · congr 1
    omega

/-! ## Doubles -/

/-- Digits with a point before the last ones, after zeros if there are too few of them. -/
theorem wellFormed_padded (negative : Bool) (row : IsRow digits)
    (head : digits.head? ≠ some '0') {places : Nat} (positive : 0 < places) {padded : List Char}
    (made : padded = List.replicate (places + 1 - digits.length) '0' ++ digits) :
    WellFormed ⟨negative, padded.take (padded.length - places),
      some (padded.drop (padded.length - places)), none⟩ := by
  have length : padded.length = places + 1 - digits.length + digits.length := by
    rw [made, List.length_append, List.length_replicate]
  have paddedRow : IsRow padded := made ▸ row.zeros_append _
  have wholeLength : (padded.take (padded.length - places)).length = padded.length - places :=
    List.length_take_of_le (Nat.sub_le ..)
  have fractionLength : (padded.drop (padded.length - places)).length = places := by
    rw [List.length_drop]
    omega
  have wholeSome : 0 < (padded.take (padded.length - places)).length := by omega
  have fractionSome : 0 < (padded.drop (padded.length - places)).length := by omega
  refine ⟨paddedRow.of_subset (List.ne_nil_of_length_pos wholeSome) (List.take_subset ..),
    fun zero => ?_, ?_⟩
  · by_cases long : places < digits.length
    · have plain : padded = digits := by
        rw [made, Nat.sub_eq_zero_of_le long]
        rfl
      rw [plain, List.head?_take, if_neg (by omega)] at zero
      exact absurd zero head
    · show (padded.take (padded.length - places)).length ≤ 1
      omega
  · rintro _ ⟨⟩
    exact paddedRow.of_subset (List.ne_nil_of_length_pos fractionSome) (List.drop_subset ..)

theorem wellFormed_ofDigits (negative : Bool) {value : Decimal.Digits}
    (positive : 0 < value.digits) : (ofDigits negative value).WellFormed := by
  have row := isRow_decimal value.digits
  have head := head?_decimal_ne positive
  rw [ofDigits]
  split
  · refine ⟨row.of_subset (by simp [row.nonempty]) (List.take_subset 1 _), fun _ => ?_, ?_⟩
    · exact List.length_take_le 1 _
    · intro later written
      obtain ⟨nonempty, same⟩ := Option.ite_none_left_eq_some.1 written
      cases same
      exact row.of_subset (by simpa using nonempty) (List.drop_subset 1 _)
  · split
    · refine ⟨row.append_zeros _, fun zero => absurd zero ?_, ?_⟩
      · rw [List.head?_append_of_ne_nil _ row.nonempty]
        exact head
      · rintro _ ⟨⟩
        exact isRow_zero
    · exact wellFormed_padded negative row head (by omega) rfl

/-- A double scaled by a power of ten that is not too large is a double. -/
theorem exists_shifted (value : Float) {exponent : Int} (small : exponent ≤ 288) :
    ∃ scaled, shifted value exponent = some scaled := by
  fun_induction shifted value exponent with
  | case1 value exponent large => exact ⟨_, rfl⟩
  | case2 value exponent large => omega
  | case3 value exponent _ _ _ overflow => exact absurd overflow.1 (by omega)
  | case4 => exact ⟨_, rfl⟩
  | case5 => exact ⟨_, rfl⟩
  | case6 => exact ⟨_, rfl⟩
  | case7 value exponent _ negative _ _ inductionHypothesis =>
      exact inductionHypothesis (by omega)

/-- A number makes a double unless its exponent is too large. -/
theorem exists_toDouble? (small : number.whole.length + number.exponent.getD 0 ≤ 288) :
    ∃ double, number.toDouble? = some double := by
  rw [toDouble?]
  generalize gather 0 0 number.whole = head
  obtain ⟨whole, taken⟩ := head
  simp only []
  generalize gather whole 0 (number.fraction.getD []) = all
  obtain ⟨significand, places⟩ := all
  obtain ⟨scaled, done⟩ := @exists_shifted significand.toUInt64.toFloat
    ((number.whole.length - taken : Nat) - places + number.exponent.getD 0) (by omega)
  exact ⟨_, congrArg _ done⟩

/-- The digits of a number whose leading one stands low enough make a double. -/
theorem exists_toDouble?_ofDigits (negative : Bool) {value : Decimal.Digits}
    (low : value.exponent + (Text.decimal value.digits).length ≤ 288) :
    ∃ double, (ofDigits negative value).toDouble? = some double := by
  refine exists_toDouble? ?_
  rw [ofDigits]
  split
  · simp only [List.length_take, Option.getD_some]
    omega
  · split
    · simp only [List.length_append, List.length_replicate, Option.getD_none]
      omega
    · simp only [List.length_take, List.length_append, List.length_replicate, Option.getD_none]
      omega

end Number

namespace Value

variable {width : Nat}

theorem unsigned?_ofNat {value : Nat} (fits : value < Width.bound width) :
    (ofNat value).unsigned? width = some value := by
  have inRange : (0 : Int) ≤ value ∧ (value : Int) ≤ Width.bound width - 1 := by omega
  simp [unsigned?, integer?, ofNat, Number.toInt?_ofNat, Option.filter, inRange]

theorem signed?_ofInt {value : Int} (fits : Width.fitsSigned width value = true) :
    (ofInt value).signed? width = some value := by
  rw [Width.fitsSigned_iff] at fits
  have inRange : -(Width.bound (width - 1) : Int) ≤ value ∧
      value ≤ Width.bound (width - 1) - 1 := by omega
  simp [signed?, integer?, ofInt, Number.toInt?_ofInt, Option.filter, inRange]

open Decimal in
/-- A double of this size is written as digits that make a double. -/
theorem exists_ofDouble {value : Float} (bounded : AtMost 96 value.toModel.unpack) :
    ∃ number, ofDouble value = .number number ∧ number.WellFormed ∧
      ∃ double, number.toDouble? = some double := by
  obtain ⟨number, finite, few, small⟩ := exists_ofBits? bounded (by decide)
  rw [ofDouble, finite]
  simp only []
  split
  · refine ⟨_, rfl, ⟨isRow_zero, fun _ => Nat.le_refl 1, ?_⟩, Number.exists_toDouble? (by simp)⟩
    rintro _ ⟨⟩
    exact isRow_zero
  · rename_i significant
    have positive := Nat.pos_of_ne_zero significant
    exact ⟨_, rfl, Number.wellFormed_ofDigits _ (Binary.shortest_pos positive),
      Number.exists_toDouble?_ofDigits _ (Binary.shortest_length_le few small)⟩

end Value

end CallProfiler.Json
