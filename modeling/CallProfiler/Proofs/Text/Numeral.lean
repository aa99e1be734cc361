import CallProfiler.Proofs.Outcome
import CallProfiler.Text.Blank
import CallProfiler.Text.Numeral

/-!
# Numerals read back

What `decimal` and `signedDecimal` write, `readNat` and `readInt` read back, for every number
of the width; and what they write is a word.
-/

namespace CallProfiler.Text

/-! ## Digits -/

theorem not_isBlank_of_isDigit {letter : Char} (digit : letter.isDigit = true) :
    isBlank letter = false := by
  simp only [Char.isDigit, Bool.and_eq_true, decide_eq_true_eq] at digit
  have lower : 48 ≤ letter.toNat := digit.1
  have upper : letter.toNat ≤ 57 := digit.2
  simp only [isBlank, Bool.or_eq_false_iff, Bool.and_eq_false_iff, decide_eq_false_iff_not,
    beq_eq_false_iff_ne]
  omega

theorem isDigit_of_mem_decimal {value : Nat} {letter : Char} (member : letter ∈ decimal value) :
    letter.isDigit = true :=
  Nat.isDigit_of_mem_toDigits (by decide) (by decide) member

theorem decimal_ne_nil (value : Nat) : decimal value ≠ [] := Nat.toDigits_ne_nil

/-- A numeral begins with a digit, so with no sign. -/
theorem decimal_eq_cons (value : Nat) :
    ∃ letter rest, decimal value = letter :: rest ∧ letter.isDigit = true := by
  obtain ⟨letter, rest, digits⟩ := List.exists_cons_of_ne_nil (decimal_ne_nil value)
  refine ⟨letter, rest, digits, @isDigit_of_mem_decimal value letter ?_⟩
  rw [digits]
  exact List.mem_cons_self

theorem isWord_decimal (value : Nat) : isWord (decimal value) = true := by
  simp only [isWord, Bool.and_eq_true, Bool.not_eq_true', List.isEmpty_eq_false_iff,
    List.all_eq_true]
  refine ⟨decimal_ne_nil value, ?_⟩
  intro letter member
  exact not_isBlank_of_isDigit (isDigit_of_mem_decimal member)

theorem isWord_signedDecimal (value : Int) : isWord (signedDecimal value) = true := by
  have digits := isWord_decimal value.natAbs
  rw [signedDecimal]
  split
  · simp only [isWord, List.isEmpty_cons, Bool.not_false, Bool.true_and, List.all_cons,
      Bool.and_eq_true] at digits ⊢
    exact ⟨by decide, digits.2⟩
  · exact digits

/-! ## Reading back -/

theorem digitValue?_digitChar {digit : Nat} (small : digit < 10) :
    digitValue? 10 digit.digitChar = some digit := by
  have all : ∀ digit < 10, digitValue? 10 (Nat.digitChar digit) = some digit := by decide
  exact all digit small

/-- Digits are read one after the other. -/
theorem readDigits_append {base limit : Nat} {beyond : NumeralProblem} {value middle : Nat}
    {earlier : List Char} (read : readDigits base limit beyond value earlier = .ok middle)
    (later : List Char) :
    readDigits base limit beyond value (earlier ++ later) =
      readDigits base limit beyond middle later := by
  induction earlier generalizing value with
  | nil =>
      cases read
      rfl
  | cons letter rest inductionHypothesis =>
      rw [readDigits] at read
      rw [List.cons_append, readDigits]
      cases known : digitValue? base letter with
      | none =>
          rw [known] at read
          cases read
      | some digit =>
          simp only [known] at read ⊢
          split at read
          · rename_i fits
            rw [if_pos fits]
            exact inductionHypothesis read
          · cases read

theorem readDigits_decimal {limit : Nat} (beyond : NumeralProblem) {value : Nat}
    (fits : value < limit) : readDigits 10 limit beyond 0 (decimal value) = .ok value := by
  -- The last digit is read onto what the others made.
  induction value using Nat.strongRecOn with
  | ind value inductionHypothesis =>
      by_cases small : value < 10
      · rw [decimal, Nat.toDigits_of_lt_base small, readDigits, digitValue?_digitChar small]
        simp [readDigits, fits]
      · have leading := inductionHypothesis (value / 10) (by omega) (by omega)
        have last := digitValue?_digitChar (Nat.mod_lt value (by decide : 10 > 0))
        have whole : value / 10 * 10 + value % 10 = value := by omega
        rw [decimal, Nat.toDigits_of_base_le (by decide) (by omega)]
        rw [decimal] at leading
        rw [readDigits_append leading, readDigits, last]
        simp [readDigits, whole, fits]

theorem readNat_decimal {width value : Nat} (fits : value < Width.bound width) :
    readNat 10 width (decimal value) = .ok value := by
  have digits := readDigits_decimal .tooLarge fits
  obtain ⟨letter, rest, written, digit⟩ := decimal_eq_cons value
  rw [written] at digits ⊢
  rw [readNat]
  · exact digits
  · nofun
  · rintro ⟨⟩
    exact absurd digit (by decide)
  · rintro unsigned ⟨⟩
    exact absurd digit (by decide)

/-- No unsigned number has a minus sign. -/
theorem readNat_minus (width : Nat) (digits : List Char) :
    readNat 10 width ('-' :: digits) = .error .invalidDigit := by
  rw [readNat]
  · rfl
  · nofun
  · nofun
  · nofun

theorem readInt_decimal {width value : Nat} (fits : value < Width.bound (width - 1)) :
    readInt width (decimal value) = .ok (value : Int) := by
  have digits := readDigits_decimal .tooLarge fits
  obtain ⟨letter, rest, written, digit⟩ := decimal_eq_cons value
  rw [written] at digits ⊢
  rw [readInt]
  · rw [digits]
    rfl
  · nofun
  · rintro ⟨⟩
    exact absurd digit (by decide)
  · rintro ⟨⟩
    exact absurd digit (by decide)
  · rintro unsigned ⟨⟩
    exact absurd digit (by decide)
  · rintro unsigned ⟨⟩
    exact absurd digit (by decide)

theorem readInt_minus_decimal {width value : Nat} (fits : value < Width.bound (width - 1) + 1) :
    readInt width ('-' :: decimal value) = .ok (-(value : Int)) := by
  have digits := readDigits_decimal .tooSmall fits
  obtain ⟨letter, rest, written, digit⟩ := decimal_eq_cons value
  rw [written] at digits ⊢
  rw [readInt]
  · rw [digits]
    rfl
  · nofun

/-- Every signed number of a width is read back. -/
theorem readInt_signedDecimal {width : Nat} {value : Int}
    (fits : Width.fitsSigned width value = true) :
    readInt width (signedDecimal value) = .ok value := by
  rw [Width.fitsSigned_iff] at fits
  rw [signedDecimal]
  split
  · have size : value.natAbs < Width.bound (width - 1) + 1 := by omega
    rw [readInt_minus_decimal size]
    congr 1
    omega
  · have size : value.natAbs < Width.bound (width - 1) := by omega
    rw [readInt_decimal size]
    congr 1
    omega

end CallProfiler.Text
