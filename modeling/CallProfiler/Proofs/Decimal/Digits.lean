import CallProfiler.Decimal.Shortest
import CallProfiler.Proofs.Decimal.Magnitude
import CallProfiler.Text.Numeral

/-!
# Digits of a number

The shortest digits of a positive number are those of a grid point that reads back as the number,
so there is a digit other than zero among them (`shortest_pos`). They stand no further up than the
number does: with its exponent, that of the leading digit is bounded (`shortest_length_le`).
-/

namespace CallProfiler.Decimal

theorem tens_pos (zeros : Nat) : 0 < tens zeros := Nat.pow_pos (by decide)

theorem shiftLeft_pos {value : Nat} (positive : 0 < value) (shift : Nat) : 0 < value <<< shift := by
  rw [Nat.shiftLeft_eq]
  exact Nat.mul_pos positive (Nat.two_pow_pos shift)

namespace Interval

variable {interval : Interval} {exponent : Int} {count : Nat}

/-- Nothing that reads back as a positive number is zero. -/
theorem pos_of_holds (low : 0 < interval.low) (holds : interval.holds exponent count = true) :
    0 < count := by
  rcases Nat.eq_zero_or_pos count with rfl | positive
  · have bound : 0 < (interval.low * tens (-exponent).toNat) <<< interval.unit.toNat :=
      shiftLeft_pos (Nat.mul_pos low (tens_pos _)) _
    simp only [Interval.holds, scaledPair, Nat.zero_mul, Nat.zero_shiftLeft] at holds
    split at holds <;> simp only [Bool.and_eq_true, decide_eq_true_eq] at holds <;> omega
  · exact positive

/-- A grid point that was found reads back, and is a neighbour of the number. -/
theorem of_gridPoint?_eq_some {digits : Nat} (found : interval.gridPoint? exponent = some digits) :
    interval.holds exponent digits = true ∧
      digits ≤ (interval.centre * tens (-exponent).toNat) <<< interval.unit.toNat + 1 := by
  have below := Nat.div_le_self ((interval.centre * tens (-exponent).toNat) <<< interval.unit.toNat)
    ((1 * tens exponent.toNat) <<< (-interval.unit).toNat)
  simp only [gridPoint?, scaledPair] at found
  split at found
  · rename_i holdsBelow holdsAbove
    rcases ite_eq_iff.1 found with ⟨_, same⟩ | ⟨_, same⟩ <;> cases same
    · exact ⟨holdsBelow, Nat.le_succ_of_le below⟩
    · exact ⟨holdsAbove, Nat.succ_le_succ below⟩
  · rename_i holdsBelow _
    cases found
    exact ⟨holdsBelow, Nat.le_succ_of_le below⟩
  · rename_i _ holdsAbove
    cases found
    exact ⟨holdsAbove, Nat.succ_le_succ below⟩
  · cases found

/-- The neighbour of a number on a grid has no more digits than the number and the grid give it. -/
theorem neighbour_lt {centre zeros shift : Nat} (few : centre + 1 < 10 ^ count) :
    (centre * tens zeros) <<< shift + 1 < 10 ^ (count + zeros + shift) := by
  have step : 0 < 10 ^ zeros * 10 ^ shift :=
    Nat.mul_pos (Nat.pow_pos (by decide)) (Nat.pow_pos (by decide))
  calc (centre * tens zeros) <<< shift + 1
      = centre * (10 ^ zeros * 2 ^ shift) + 1 := by rw [Nat.shiftLeft_eq, Nat.mul_assoc]; rfl
    _ ≤ centre * (10 ^ zeros * 10 ^ shift) + 10 ^ zeros * 10 ^ shift :=
        Nat.add_le_add (Nat.mul_le_mul_left _ (Nat.mul_le_mul_left _
          (Nat.pow_le_pow_left (by decide) shift))) step
    _ = (centre + 1) * (10 ^ zeros * 10 ^ shift) := (Nat.succ_mul _ _).symm
    _ < 10 ^ count * (10 ^ zeros * 10 ^ shift) := Nat.mul_lt_mul_of_pos_right few step
    _ = 10 ^ (count + zeros + shift) := by rw [Nat.pow_add, Nat.pow_add, Nat.mul_assoc]

/-- A search ends at a grid point of its own or of a finer grid, or with the number itself. -/
theorem search_cases (interval : Interval) (exponent : Int) (steps : Nat) :
    interval.search exponent steps = ⟨interval.centre, 0⟩ ∨
      ∃ finer ≤ exponent, ∃ digits, interval.gridPoint? finer = some digits ∧
        interval.search exponent steps = ⟨digits, finer⟩ := by
  induction steps generalizing exponent with
  | zero => exact .inl rfl
  | succ steps inductionHypothesis =>
      rw [search]
      cases found : interval.gridPoint? exponent with
      | some digits => exact .inr ⟨exponent, Int.le_refl _, digits, found, rfl⟩
      | none =>
          rcases inductionHypothesis (exponent - 1) with whole | ⟨finer, below, digits, there, same⟩
          · exact .inl whole
          · exact .inr ⟨finer, by omega, digits, there, same⟩

end Interval

namespace Binary

variable {number : Binary}

theorem shortest_pos (positive : 0 < number.significand) : 0 < number.shortest.digits := by
  have low : 0 < number.interval.low := by
    simp only [interval]
    split <;> omega
  rcases number.interval.search_cases (coarsestExponent number) 24 with
    whole | ⟨finer, _, digits, found, same⟩
  · rw [shortest, whole]
    exact Nat.mul_pos (by decide) positive
  · rw [shortest, same]
    exact Interval.pos_of_holds low (Interval.of_gridPoint?_eq_some found).1

/-- The leading digit of a number that is not too large has a low place. -/
theorem shortest_length_le (few : number.significand < 2 ^ 53) (small : number.exponent ≤ 96) :
    number.shortest.exponent + (Text.decimal number.shortest.digits).length ≤ 288 := by
  have centre : number.interval.centre + 1 < 10 ^ 17 := by
    show 4 * number.significand + 1 < 10 ^ 17
    omega
  have unit : number.interval.unit = number.exponent - 2 := rfl
  rcases number.interval.search_cases (coarsestExponent number) 24 with
    whole | ⟨finer, coarse, digits, found, same⟩
  · have length : (Text.decimal number.interval.centre).length ≤ 17 :=
      (Nat.length_toDigits_le_iff (by decide) (by decide)).2 (Nat.lt_of_succ_lt centre)
    rw [shortest, whole]
    show 0 + ((Text.decimal number.interval.centre).length : Int) ≤ 288
    omega
  · have near := (Interval.of_gridPoint?_eq_some found).2
    have coarsest : coarsestExponent number ≤ 46 := by
      have bits : number.significand.log2 ≤ 52 := log2_le_of_lt few
      rw [coarsestExponent]
      omega
    have length : (Text.decimal digits).length ≤
        17 + (-finer).toNat + number.interval.unit.toNat :=
      (Nat.length_toDigits_le_iff (by decide) (by omega)).2
        (Nat.lt_of_le_of_lt near (Interval.neighbour_lt centre))
    rw [shortest, same]
    show finer + ((Text.decimal digits).length : Int) ≤ 288
    omega

end Binary

end CallProfiler.Decimal
