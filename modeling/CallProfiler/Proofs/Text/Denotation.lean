import CallProfiler.Proofs.Outcome
import CallProfiler.Text.Numeral

/-!
# What numerals denote

A numeral is a row of ASCII digits, with or without a plus sign, and one of an integer may have
a minus sign instead. That says which texts are numerals, and of which numbers, without reading
them. `readNat_eq_ok_iff` and `readInt_eq_ok_iff` say that reading accepts these texts and no
others, as long as the number fits: the checks after every digit refuse nothing that a check of
the whole number would let pass.
-/

namespace CallProfiler.Text

/-- A row of digits and the number that it denotes. -/
structure Digits (text : List Char) (value : Nat) : Prop where
  nonempty : text ≠ []
  digits : ∀ letter ∈ text, letter.isDigit = true
  value_eq : value = Nat.ofDigitChars 10 text 0

/-- Numerals of natural numbers. -/
inductive Unsigned : List Char → Nat → Prop
  | plain {text : List Char} {value : Nat} (digits : Digits text value) : Unsigned text value
  | plus {text : List Char} {value : Nat} (digits : Digits text value) :
      Unsigned ('+' :: text) value

/-- Numerals of integers. -/
inductive Signed : List Char → Int → Prop
  | unsigned {text : List Char} {value : Nat} (numeral : Unsigned text value) : Signed text value
  | minus {text : List Char} {value : Nat} (digits : Digits text value) :
      Signed ('-' :: text) (-value)

/-! ## Digits -/

theorem digitValue?_eq_some_iff {letter : Char} {digit : Nat} :
    digitValue? 10 letter = some digit ↔
      letter.isDigit = true ∧ digit = letter.toNat - '0'.toNat := by
  have isDigit : letter.isDigit = true ↔ '0' ≤ letter ∧ letter ≤ '9' := by
    simp [Char.isDigit, Char.le_def]
  rw [isDigit, digitValue?, Option.filter_eq_some_iff, decide_eq_true_eq]
  by_cases inRange : '0' ≤ letter ∧ letter ≤ '9'
  · have least : '0'.toNat ≤ letter.toNat := inRange.1
    have most : letter.toNat ≤ '0'.toNat + 9 := inRange.2
    rw [if_pos inRange, Option.some.injEq]
    constructor
    · rintro ⟨rfl, _⟩
      exact ⟨inRange, rfl⟩
    · rintro ⟨_, rfl⟩
      exact ⟨rfl, by omega⟩
  · -- The letters are worth ten and more.
    rw [if_neg inRange]
    constructor
    · rintro ⟨worth, small⟩
      split at worth
      · cases worth
        omega
      · split at worth
        · cases worth
          omega
        · cases worth
    · exact fun digit => absurd digit.1 inRange

/-- Further digits make a number no smaller. -/
theorem le_ofDigitChars (text : List Char) (value : Nat) :
    value ≤ Nat.ofDigitChars 10 text value := by
  induction text generalizing value with
  | nil => exact Nat.le_refl value
  | cons letter rest inductionHypothesis =>
      rw [Nat.ofDigitChars_cons]
      exact Nat.le_trans (by omega) (inductionHypothesis _)

/-- Digits are read onto a number as long as the whole stays below the limit. -/
theorem readDigits_eq_ok_iff {limit value result : Nat} {beyond : NumeralProblem}
    {text : List Char} (below : value < limit) :
    readDigits 10 limit beyond value text = .ok result ↔
      (∀ letter ∈ text, letter.isDigit = true) ∧
        result = Nat.ofDigitChars 10 text value ∧ result < limit := by
  induction text generalizing value with
  | nil =>
      rw [readDigits, Nat.ofDigitChars_nil, Except.ok.injEq]
      constructor
      · rintro rfl
        exact ⟨by simp, rfl, below⟩
      · rintro ⟨_, rfl, _⟩
        rfl
  | cons letter rest inductionHypothesis =>
      rw [readDigits, List.forall_mem_cons]
      cases known : digitValue? 10 letter with
      | none =>
          have other : letter.isDigit = false := by
            rw [← Bool.not_eq_true]
            intro digit
            have worth := digitValue?_eq_some_iff.2 ⟨digit, rfl⟩
            rw [known] at worth
            cases worth
          simp [other]
      | some digit =>
          obtain ⟨isDigit, rfl⟩ := digitValue?_eq_some_iff.1 known
          simp only [isDigit, true_and, Nat.ofDigitChars_cons, Nat.mul_comm value 10]
          split
          · rename_i fits
            exact inductionHypothesis fits
          · rename_i large
            have more := le_ofDigitChars rest (10 * value + (letter.toNat - '0'.toNat))
            simp only [reduceCtorEq, false_iff, not_and, Nat.not_lt]
            rintro _ rfl
            exact Nat.le_trans (Nat.not_lt.1 large) more

/-- A row of digits is read if the number that it denotes is below the limit. -/
theorem readDigits_iff_digits {limit value : Nat} {beyond : NumeralProblem} {text : List Char}
    (positive : 0 < limit) (nonempty : text ≠ []) :
    readDigits 10 limit beyond 0 text = .ok value ↔ Digits text value ∧ value < limit := by
  rw [readDigits_eq_ok_iff positive]
  constructor
  · rintro ⟨digits, same, fits⟩
    exact ⟨⟨nonempty, digits, same⟩, fits⟩
  · rintro ⟨⟨_, digits, same⟩, fits⟩
    exact ⟨digits, same, fits⟩

theorem not_digits_cons {sign : Char} {text : List Char} {value : Nat}
    (isSign : sign.isDigit = false) : ¬ Digits (sign :: text) value := by
  intro digits
  have digit := digits.digits sign List.mem_cons_self
  rw [isSign] at digit
  cases digit

theorem digits_of_unsigned {text : List Char} {value : Nat} (numeral : Unsigned text value)
    (unsigned : ∀ rest, text ≠ '+' :: rest) : Digits text value := by
  cases numeral with
  | plain digits => exact digits
  | plus digits => exact absurd rfl (unsigned _)

theorem digits_of_plus {text : List Char} {value : Nat} (numeral : Unsigned ('+' :: text) value) :
    Digits text value := by
  cases numeral with
  | plain digits => exact absurd digits (not_digits_cons rfl)
  | plus digits => exact digits

/-! ## Reading -/

/-- The numerals that are read as unsigned numbers of a width. -/
theorem readNat_eq_ok_iff {width value : Nat} {text : List Char} :
    readNat 10 width text = .ok value ↔ Unsigned text value ∧ value < Width.bound width := by
  have positive := Width.bound_pos width
  unfold readNat
  split
  · simp only [reduceCtorEq, false_iff, not_and]
    intro numeral
    exact absurd rfl (digits_of_unsigned numeral nofun).nonempty
  · simp only [reduceCtorEq, false_iff, not_and]
    intro numeral
    exact absurd rfl (digits_of_plus numeral).nonempty
  · rename_i digits something
    rw [readDigits_iff_digits positive (by rintro rfl; exact something rfl)]
    exact and_congr_left fun _ => ⟨.plus, digits_of_plus⟩
  · rename_i nonempty _ unsigned
    rw [readDigits_iff_digits positive nonempty]
    exact and_congr_left fun _ => ⟨.plain, fun numeral => digits_of_unsigned numeral unsigned⟩

theorem signed_minus_iff {text : List Char} {value : Int} :
    Signed ('-' :: text) value ↔ ∃ size : Nat, Digits text size ∧ value = -size := by
  constructor
  · intro signed
    cases signed with
    | unsigned numeral =>
        exact absurd (digits_of_unsigned numeral nofun) (not_digits_cons rfl)
    | minus digits => exact ⟨_, digits, rfl⟩
  · rintro ⟨size, digits, rfl⟩
    exact .minus digits

theorem signed_iff_unsigned {text : List Char} {value : Int}
    (unsigned : ∀ rest, text ≠ '-' :: rest) :
    Signed text value ↔ ∃ size : Nat, Unsigned text size ∧ value = size := by
  constructor
  · intro signed
    cases signed with
    | unsigned numeral => exact ⟨_, numeral, rfl⟩
    | minus digits => exact absurd rfl (unsigned _)
  · rintro ⟨size, numeral, rfl⟩
    exact .unsigned numeral

/-- Without a minus sign an integer is read as a natural number of one bit less. -/
theorem readInt_of_unsigned {width : Nat} {text : List Char}
    (unsigned : ∀ rest, text ≠ '-' :: rest) :
    readInt width text = (readNat 10 (width - 1) text).map Int.ofNat := by
  unfold readInt readNat
  split
  · rfl
  · rfl
  · exact absurd rfl (unsigned [])
  · split <;> simp_all
  · exact absurd rfl (unsigned _)
  · split <;> simp_all

/-- The numerals that are read as signed numbers of a width. -/
theorem readInt_eq_ok_iff {width : Nat} {value : Int} {text : List Char} :
    readInt width text = .ok value ↔ Signed text value ∧ Width.fitsSigned width value = true := by
  by_cases negative : ∃ digits, text = '-' :: digits
  · obtain ⟨digits, rfl⟩ := negative
    rw [signed_minus_iff]
    have fits (size : Nat) : Width.fitsSigned width (-size) = true ↔
        size < Width.bound (width - 1) + 1 := by
      have positive := Width.bound_pos (width - 1)
      rw [Width.fitsSigned_iff]
      omega
    cases digits with
    | nil =>
        simp only [readInt, reduceCtorEq, false_iff]
        rintro ⟨⟨_, digits, _⟩, _⟩
        exact digits.nonempty rfl
    | cons letter rest =>
        have read : readInt width ('-' :: letter :: rest) = .ok value ↔
            ∃ size, readDigits 10 (Width.bound (width - 1) + 1) .tooSmall 0 (letter :: rest) =
              .ok size ∧ -Int.ofNat size = value := map_eq_ok_iff
        simp only [read, readDigits_iff_digits (Nat.succ_pos _) (List.cons_ne_nil letter rest)]
        constructor
        · rintro ⟨size, ⟨digits, small⟩, rfl⟩
          exact ⟨⟨size, digits, rfl⟩, (fits size).2 small⟩
        · rintro ⟨⟨size, digits, rfl⟩, small⟩
          exact ⟨size, ⟨digits, (fits size).1 small⟩, rfl⟩
  · have unsigned : ∀ rest, text ≠ '-' :: rest := fun rest same => negative ⟨rest, same⟩
    rw [readInt_of_unsigned unsigned, signed_iff_unsigned unsigned, map_eq_ok_iff]
    simp only [readNat_eq_ok_iff]
    constructor
    · rintro ⟨size, ⟨numeral, small⟩, rfl⟩
      exact ⟨⟨size, numeral, rfl⟩, Width.fitsSigned_natCast.2 small⟩
    · rintro ⟨⟨size, numeral, rfl⟩, small⟩
      exact ⟨size, ⟨numeral, Width.fitsSigned_natCast.1 small⟩, rfl⟩

end CallProfiler.Text
