/-!
# Widths

Machine numbers are told apart by their width in bits. The unsigned numbers of a width are those
below its bound; the signed ones lie on both sides of zero, below the bound of one bit less.
-/

namespace CallProfiler.Width

/-- How many values `width` bits have, and so the first natural number beyond them. -/
def bound (width : Nat) : Nat := 1 <<< width

/-- Whether a signed number fits `width` bits. -/
def fitsSigned (width : Nat) (value : Int) : Bool :=
  -(bound (width - 1) : Int) ≤ value && value < (bound (width - 1) : Int)

theorem bound_pos (width : Nat) : 0 < bound width := by
  rw [bound, Nat.one_shiftLeft]
  exact Nat.two_pow_pos width

theorem fitsSigned_iff {width : Nat} {value : Int} :
    fitsSigned width value = true ↔
      -(bound (width - 1) : Int) ≤ value ∧ value < (bound (width - 1) : Int) := by
  rw [fitsSigned, Bool.and_eq_true, decide_eq_true_eq, decide_eq_true_eq]

/-- A number that is not negative fits if it is below half of the width's bound. -/
theorem fitsSigned_natCast {width value : Nat} :
    fitsSigned width (value : Int) = true ↔ value < bound (width - 1) := by
  rw [fitsSigned_iff]
  omega

theorem fitsSigned_toInt32 (number : Int32) : fitsSigned 32 number.toInt = true :=
  fitsSigned_iff.2 ⟨number.le_toInt, number.toInt_lt⟩

theorem fitsSigned_toInt64 (number : Int64) : fitsSigned 64 number.toInt = true :=
  fitsSigned_iff.2 ⟨number.le_toInt, number.toInt_lt⟩

/-- A number that fits its width is the one that is held. -/
theorem toInt_ofInt32 {value : Int} (fits : fitsSigned 32 value = true) :
    (Int32.ofInt value).toInt = value :=
  Int32.toInt_ofInt_of_le (fitsSigned_iff.1 fits).1 (fitsSigned_iff.1 fits).2

theorem toInt_ofInt64 {value : Int} (fits : fitsSigned 64 value = true) :
    (Int64.ofInt value).toInt = value :=
  Int64.toInt_ofInt_of_le (fitsSigned_iff.1 fits).1 (fitsSigned_iff.1 fits).2

theorem bound_succ (width : Nat) : bound (width + 1) = 2 * bound width := by
  simp only [bound, Nat.one_shiftLeft, Nat.pow_succ]
  omega

end CallProfiler.Width
