import CallProfiler.Decimal.Binary
import Mathlib

/-!
# Magnitudes

Arithmetic on doubles rounds its results, and a result that is too large becomes infinite. How
large it can be is told by the exponents of the operands. `AtMost` bounds a number from above by
its exponent; every operation carries such a bound to its result. A quotient needs a bound of
the divisor from below as well, which a number has that keeps all bits of its mantissa
(`AtLeast`). A double within a bound is a finite number (`exists_ofBits?`).
-/

namespace CallProfiler.Decimal

open Float.Model Float.Model.UnpackedFloat

variable {sign : Sign} {mantissa : Nat} {exponent highest lowest : Int} {accuracy : Accuracy}

/-! ## Rounding -/

theorem log2_le_of_lt {value bits : Nat} (less : value < 2 ^ (bits + 1)) : value.log2 ≤ bits := by
  rcases Nat.eq_zero_or_pos value with rfl | positive
  · exact Nat.zero_le _
  · exact Nat.le_of_lt_succ ((Nat.log2_lt (Nat.ne_of_gt positive)).2 less)

theorem log2_shiftLeft_le (value count : Nat) : (value <<< count).log2 ≤ value.log2 + count := by
  refine log2_le_of_lt ?_
  rw [Nat.shiftLeft_eq, Nat.add_right_comm, Nat.pow_add]
  exact Nat.mul_lt_mul_of_pos_right Nat.lt_log2_self (Nat.two_pow_pos count)

theorem targetExponent_eq (total : Int) :
    Format.binary64.targetExponent total = max (total - 53) (-1074) := by
  rw [Format.targetExponent]
  rfl

theorem mantissa_shiftRight (extended : ExtendedMantissa) (count : Nat) :
    (extended >>> count).mantissa = extended.mantissa / 2 ^ count := by
  induction count with
  | zero => exact (Nat.div_one _).symm
  | succ count inductionHypothesis =>
      show (extended >>> count).mantissa / 2 = _
      rw [inductionHypothesis, Nat.div_div_eq_div_mul, Nat.pow_succ]

theorem mantissa_ofMantissaAndAccuracy (mantissa : Nat) (accuracy : Accuracy) :
    (ExtendedMantissa.ofMantissaAndAccuracy mantissa accuracy).mantissa = mantissa := by
  rcases accuracy with _ | _ | _ | _ <;> rfl

/-- Rounding takes a mantissa no further than to the next one. -/
theorem roundedMantissa_near (extended : ExtendedMantissa) :
    extended.mantissa ≤ extended.roundedMantissa ∧
      extended.roundedMantissa ≤ extended.mantissa + 1 := by
  obtain ⟨mantissa, roundBit, stickyBit⟩ := extended
  cases roundBit <;> cases stickyBit <;>
    simp only [ExtendedMantissa.roundedMantissa, ExtendedMantissa.accuracy,
      Accuracy.roundToNearestEven] <;> omega

/-- How many of its last bits a mantissa loses when it is rounded. -/
def lostBits (mantissa : Nat) (exponent : Int) : Nat :=
  (max (mantissa.log2 + 1 + exponent - 53) (-1074) - exponent).toNat

theorem shiftToTargetExponent_mantissa :
    (shiftToTargetExponent Format.binary64 mantissa exponent accuracy).1.mantissa =
      mantissa / 2 ^ lostBits mantissa exponent := by
  rw [shiftToTargetExponent, targetExponent_eq, shiftToExponent]
  rw [mantissa_shiftRight, mantissa_ofMantissaAndAccuracy]
  rfl

theorem shiftToTargetExponent_exponent :
    (shiftToTargetExponent Format.binary64 mantissa exponent accuracy).2 =
      exponent + lostBits mantissa exponent := by
  rw [shiftToTargetExponent, targetExponent_eq, shiftToExponent]
  rfl

/-- What is left of a mantissa has at most the bits of a double. -/
theorem div_lostBits_lt (mantissa : Nat) (exponent : Int) :
    mantissa / 2 ^ lostBits mantissa exponent < 2 ^ 53 := by
  have enough : mantissa.log2 + 1 ≤ 53 + lostBits mantissa exponent := by
    rw [lostBits]
    omega
  rw [Nat.div_lt_iff_lt_mul (Nat.two_pow_pos _), ← Nat.pow_add]
  exact Nat.lt_of_lt_of_le Nat.lt_log2_self (Nat.pow_le_pow_right Nat.zero_lt_two enough)

/-- A mantissa that has these bits keeps all of them, unless the number is too small. -/
theorem le_div_lostBits (full : 2 ^ 52 ≤ mantissa) (large : -1074 ≤ exponent) :
    2 ^ 52 ≤ mantissa / 2 ^ lostBits mantissa exponent := by
  have positive : mantissa ≠ 0 := by omega
  have bits := (Nat.le_log2 positive).2 full
  have lost : mantissa.log2 = 52 + lostBits mantissa exponent := by
    rw [lostBits]
    omega
  rw [Nat.le_div_iff_mul_le (Nat.two_pow_pos _), ← Nat.pow_add, ← lost]
  exact Nat.log2_self_le positive

/-- A number is rounded twice: the first rounding may take it to the next power of two. -/
theorem exists_roundWithAccuracy (sign : Sign) (mantissa : Nat) (exponent : Int)
    (accuracy : Accuracy) :
    ∃ rounded, mantissa / 2 ^ lostBits mantissa exponent ≤ rounded ∧
      rounded ≤ mantissa / 2 ^ lostBits mantissa exponent + 1 ∧
      ∀ carried, carried = exponent + lostBits mantissa exponent →
        roundWithAccuracy Format.binary64 sign mantissa exponent accuracy =
          if zero : rounded / 2 ^ lostBits rounded carried = 0 then .zero sign
          else .finite sign (rounded / 2 ^ lostBits rounded carried)
            (carried + lostBits rounded carried) (Nat.pos_of_ne_zero zero) := by
  obtain ⟨low, high⟩ := roundedMantissa_near
    (shiftToTargetExponent Format.binary64 mantissa exponent accuracy).1
  rw [shiftToTargetExponent_mantissa] at low high
  refine ⟨_, low, high, ?_⟩
  rintro carried rfl
  rw [roundWithAccuracy]
  simp only [shiftToTargetExponent_mantissa, shiftToTargetExponent_exponent]

/-! ## Bounds -/

/-- Zero, or a number in units of a power of two that is no higher. -/
inductive AtMost (highest : Int) : UnpackedFloat → Prop
  | zero (sign : Sign) : AtMost highest (.zero sign)
  | finite (sign : Sign) {mantissa : Nat} {exponent : Int} (positive : 0 < mantissa)
      (few : mantissa < 2 ^ 53) (small : exponent ≤ highest) :
      AtMost highest (.finite sign mantissa exponent positive)

/-- A number with all bits of its mantissa, in units of a power of two that is no lower. -/
inductive AtLeast (lowest : Int) : UnpackedFloat → Prop
  | finite (sign : Sign) {mantissa : Nat} {exponent : Int} (positive : 0 < mantissa)
      (many : 2 ^ 52 ≤ mantissa) (large : lowest ≤ exponent) :
      AtLeast lowest (.finite sign mantissa exponent positive)

instance (highest : Int) : (number : UnpackedFloat) → Decidable (AtMost highest number)
  | .zero sign => isTrue (.zero sign)
  | .finite sign mantissa exponent positive =>
    decidable_of_iff (mantissa < 2 ^ 53 ∧ exponent ≤ highest)
      ⟨fun ⟨few, small⟩ => .finite sign positive few small, fun
        | .finite _ _ few small => ⟨few, small⟩⟩
  | .infinity _ => isFalse nofun
  | .notANumber => isFalse nofun

theorem AtMost.mono {number : UnpackedFloat} {higher : Int} (bounded : AtMost highest number)
    (le : highest ≤ higher) : AtMost higher number := by
  cases bounded with
  | zero sign => exact .zero sign
  | finite sign positive few small => exact .finite sign positive few (Int.le_trans small le)

theorem atMost_roundWithAccuracy (small : exponent < highest)
    (few : mantissa.log2 + exponent < highest + 52) (normal : -1074 < highest) :
    AtMost highest (roundWithAccuracy Format.binary64 sign mantissa exponent accuracy) := by
  obtain ⟨rounded, _, near, result⟩ := exists_roundWithAccuracy sign mantissa exponent accuracy
  have left := div_lostBits_lt mantissa exponent
  have carried : exponent + lostBits mantissa exponent < highest := by
    rw [lostBits]
    omega
  have bits : rounded.log2 ≤ 53 := log2_le_of_lt (by omega)
  rw [result _ rfl]
  split
  · exact .zero sign
  · refine .finite sign _ (div_lostBits_lt _ _) ?_
    generalize exponent + lostBits mantissa exponent = reached at carried
    rw [lostBits]
    omega

theorem atLeast_roundWithAccuracy (full : 2 ^ 52 ≤ mantissa) (normal : -1074 ≤ lowest)
    (large : lowest ≤ exponent) :
    AtLeast lowest (roundWithAccuracy Format.binary64 sign mantissa exponent accuracy) := by
  obtain ⟨rounded, near, _, result⟩ := exists_roundWithAccuracy sign mantissa exponent accuracy
  have left := Nat.le_trans (le_div_lostBits full (Int.le_trans normal large)) near
  have kept : 2 ^ 52 ≤ rounded / 2 ^ lostBits rounded (exponent + lostBits mantissa exponent) :=
    le_div_lostBits left (by omega)
  rw [result _ rfl, dif_neg (by omega)]
  exact .finite sign _ kept (by omega)

/-! ## Packed numbers -/

/-- An exponent as doubles hold it. -/
def packedExponent (exponent : Int) : BitVec 11 := BitVec.ofNat 11 (exponent + 1075).toNat

theorem toNat_packedExponent (fits : exponent ≤ 971) :
    (packedExponent exponent).toNat = (exponent + 1075).toNat := by
  rw [packedExponent, BitVec.toNat_ofNat]
  omega

/-- The greatest exponent is none of a number. -/
theorem ne_greatest {scale : BitVec 11} (less : scale.toNat < 2047) : scale ≠ -1#11 := by
  rintro rfl
  exact absurd less (by decide)

theorem toNat_implicit (fraction : BitVec 52) :
    (1#1 ++ fraction).toNat = 2 ^ 52 + fraction.toNat := by
  rw [BitVec.toNat_append, ← Nat.shiftLeft_add_eq_or_of_lt fraction.isLt]
  rfl

theorem pack_finite (fits : exponent ≤ 971) (positive : 0 < mantissa) :
    UnpackedFloat.pack Format.binary64 (.finite sign mantissa exponent positive) =
      packComponents Format.binary64 sign
        (if mantissa.log2 = 52 then packedExponent exponent else 0#11)
        (BitVec.ofNat 52 mantissa) := by
  have stored : (exponent + Format.binary64.exponentBias +
      Format.binary64.mantissaBitsWithoutImplicit).toNat = (exponent + 1075).toNat := by
    show (exponent + 1023 + 52).toNat = _
    omega
  have bits : mantissa.log2 + 1 = Format.binary64.mantissaBits ↔ mantissa.log2 = 52 :=
    Nat.succ_inj
  simp only [UnpackedFloat.pack, stored, bits]
  rw [if_neg (by show ¬ 2048 ≤ _; omega)]
  split <;> rfl

/-- What is packed with an exponent that is not the greatest one is a number. -/
theorem atMost_unpack_packComponents {scale : BitVec 11} {fraction : BitVec 52}
    (finite : scale.toNat < 2047) (small : scale.toNat ≤ highest + 1075)
    (normal : -1074 ≤ highest) :
    AtMost highest (UnpackedFloat.unpack Format.binary64
      (packComponents Format.binary64 sign scale fraction)) := by
  have bits := fraction.isLt
  rw [UnpackedFloat.unpack]
  simp only [unpackMantissa_packComponents, unpackExponent_packComponents]
  rw [if_neg (ne_greatest finite)]
  split
  · rename_i least
    split
    · exact .zero _
    · refine .finite _ _ (by omega) ?_
      rw [least]
      show (0 : Int) - (1023 + 52) + 1 ≤ highest
      omega
  · refine .finite _ _ (by rw [toNat_implicit]; omega) ?_
    show (scale.toNat : Int) - (1023 + 52) ≤ highest
    omega

/-- A number within a bound stays within it in a double, unless it is too large for one. -/
theorem atMost_pack {number : UnpackedFloat} (bounded : AtMost highest number)
    (normal : -1074 ≤ highest) (fits : highest ≤ 971) :
    AtMost highest (Float.Model.pack number).unpack := by
  cases bounded with
  | zero sign =>
      exact atMost_unpack_packComponents (by decide) (by show (0 : Int) ≤ _; omega) normal
  | @finite sign mantissa exponent positive few small =>
      have inDoubles : exponent ≤ 971 := Int.le_trans small fits
      have stored := toNat_packedExponent inDoubles
      show AtMost highest (UnpackedFloat.unpack _ (UnpackedFloat.pack _ _))
      rw [pack_finite inDoubles]
      split
      · exact atMost_unpack_packComponents (by omega) (by omega) normal
      · exact atMost_unpack_packComponents (by decide) (by show (0 : Int) ≤ _; omega) normal

/-- So does a number with all bits of its mantissa. -/
theorem atLeast_pack {number : UnpackedFloat} (bounded : AtMost highest number)
    (full : AtLeast lowest number) (normal : -1074 ≤ lowest) (fits : highest ≤ 971) :
    AtLeast lowest (Float.Model.pack number).unpack := by
  cases full with
  | @finite sign mantissa exponent positive many large =>
      obtain ⟨few, small⟩ : mantissa < 2 ^ 53 ∧ exponent ≤ highest := by
        cases bounded with
        | finite _ _ few small => exact ⟨few, small⟩
      have inDoubles : exponent ≤ 971 := Int.le_trans small fits
      have stored := toNat_packedExponent inDoubles
      have bits : mantissa.log2 = 52 := (Nat.log2_eq_iff (Nat.ne_of_gt positive)).2 ⟨many, few⟩
      have notLeast : packedExponent exponent ≠ 0#11 := by
        intro least
        rw [least] at stored
        change 0 = _ at stored
        omega
      show AtLeast lowest (UnpackedFloat.unpack _ (UnpackedFloat.pack _ _))
      rw [pack_finite inDoubles, if_pos bits, UnpackedFloat.unpack]
      simp only [unpackMantissa_packComponents, unpackExponent_packComponents]
      rw [if_neg (ne_greatest (by omega)), if_neg notLeast]
      refine .finite _ _ (by rw [toNat_implicit]; omega) ?_
      show lowest ≤ ((packedExponent exponent).toNat : Int) - (1023 + 52)
      omega

/-- The exponent field of a double's bits. -/
theorem toNat_unpackExponent (bits : UInt64) :
    (@unpackExponent Format.binary64 bits.toBitVec).toNat =
      bits.toNat / Width.bound 52 % Width.bound 11 := by
  rw [unpackExponent, BitVec.toNat_cast, BitVec.extractLsb_toNat, Nat.shiftRight_eq_div_pow]
  rfl

/-- A double within a bound is a finite number, and the bound is one of its exponent. -/
theorem exists_ofBits? {value : Float} (bounded : AtMost highest value.toModel.unpack)
    (normal : -1074 ≤ highest) :
    ∃ number, Binary.ofBits? value.toBits = some number ∧
      number.significand < 2 ^ 53 ∧ number.exponent ≤ highest := by
  have fraction : value.toBits.toNat % Width.bound 52 < 2 ^ 52 := Nat.mod_lt _ (Width.bound_pos 52)
  have scale := toNat_unpackExponent value.toBits
  rw [Float.Model.unpack, UnpackedFloat.unpack] at bounded
  change (@unpackExponent Format.binary64 value.toModel.toBits.toBitVec).toNat = _ at scale
  simp only [Binary.ofBits?, ← scale]
  split at bounded
  · split at bounded <;> cases bounded
  · rename_i finite
    have less : (@unpackExponent Format.binary64 value.toModel.toBits.toBitVec).toNat ≠ 2047 :=
      fun greatest => finite (BitVec.eq_of_toNat_eq greatest)
    rw [if_neg less]
    split
    · exact ⟨_, rfl, Nat.lt_trans fraction (by decide), normal⟩
    · rename_i large
      rw [if_neg (fun least => large (congrArg BitVec.toNat least))] at bounded
      cases bounded with
      | finite _ _ _ small => exact ⟨_, rfl, Nat.add_lt_add_left fraction (2 ^ 52), small⟩

/-! ## Arithmetic -/

/-- A whole number of 64 bits is shifted up until it has all bits of a mantissa, then rounded. -/
theorem exists_ofUInt64 {value : UInt64} (positive : value.toNat ≠ 0) :
    ∃ mantissa exponent,
      UnpackedFloat.ofUInt64 Format.binary64 value =
        roundWithAccuracy Format.binary64 .positive mantissa exponent .exact ∧
      2 ^ 52 ≤ mantissa ∧ mantissa.log2 + exponent ≤ 63 ∧ -52 ≤ exponent ∧ exponent ≤ 0 := by
  have compared : compare (value.toNat : Int) 0 = .gt := Int.compare_eq_gt.2 (by omega)
  have bits : value.toNat.log2 ≤ 63 := log2_le_of_lt value.toNat_lt
  have shift : (0 - max ((value.toNat.log2 : Int) + 1 + 0 - 53) (-1074)).toNat =
      52 - value.toNat.log2 := by omega
  refine ⟨value.toNat <<< (52 - value.toNat.log2), 0 - (52 - value.toNat.log2 : Nat), ?_, ?_, ?_,
    by omega, by omega⟩
  · show UnpackedFloat.normalize Format.binary64 (value.toNat : Int) 0 .positive = _
    simp only [UnpackedFloat.normalize, compared, Int.toNat_natCast, UnpackedFloat.round,
      targetExponent_eq, totalExponent, decreaseExponent, shift]
  · rw [Nat.shiftLeft_eq]
    calc 2 ^ 52 ≤ 2 ^ (value.toNat.log2 + (52 - value.toNat.log2)) :=
          Nat.pow_le_pow_right Nat.zero_lt_two (by omega)
      _ = 2 ^ value.toNat.log2 * 2 ^ (52 - value.toNat.log2) := Nat.pow_add ..
      _ ≤ value.toNat * 2 ^ (52 - value.toNat.log2) :=
          Nat.mul_le_mul_right _ (Nat.log2_self_le positive)
  · have few := log2_shiftLeft_le value.toNat (52 - value.toNat.log2)
    omega

theorem atMost_ofUInt64 (value : UInt64) :
    AtMost 12 (UnpackedFloat.ofUInt64 Format.binary64 value) := by
  by_cases zero : value.toNat = 0
  · cases UInt64.toNat_inj.1 (zero.trans UInt64.toNat_zero.symm)
    exact .zero .positive
  · obtain ⟨mantissa, exponent, rounded, _, few, _, small⟩ := exists_ofUInt64 zero
    rw [rounded]
    exact atMost_roundWithAccuracy (by omega) (by omega) (by decide)

theorem atMost_toFloat (value : UInt64) : AtMost 12 value.toFloat.toModel.unpack :=
  atMost_pack (atMost_ofUInt64 value) (by decide) (by decide)

theorem atLeast_toFloat {value : UInt64} (positive : value.toNat ≠ 0) :
    AtLeast (-52) value.toFloat.toModel.unpack := by
  obtain ⟨mantissa, exponent, rounded, full, _, large, _⟩ := exists_ofUInt64 positive
  refine atLeast_pack (atMost_ofUInt64 value) ?_ (by decide) (by decide)
  rw [rounded]
  exact atLeast_roundWithAccuracy full (by decide) large

section Operands

variable {left right : UnpackedFloat} {leftHighest rightHighest rightLowest : Int}

theorem atMost_unpackedMul (leftBounded : AtMost leftHighest left)
    (rightBounded : AtMost rightHighest right) (normal : -1074 < leftHighest + rightHighest + 54) :
    AtMost (leftHighest + rightHighest + 54) (UnpackedFloat.mul Format.binary64 left right) := by
  cases leftBounded with
  | zero sign => cases rightBounded <;> exact .zero _
  | @finite sign mantissa exponent positive few small =>
      cases rightBounded with
      | zero => exact .zero _
      | @finite otherSign other otherExponent otherPositive otherFew otherSmall =>
          have product : mantissa * other < 2 ^ 106 := by
            rw [Nat.pow_add 2 53 53]
            exact Nat.mul_lt_mul'' few otherFew
          have bits : (mantissa * other).log2 ≤ 105 := log2_le_of_lt product
          exact atMost_roundWithAccuracy (by omega) (by omega) normal

theorem atMost_unpackedDiv (leftBounded : AtMost leftHighest left)
    (rightFull : AtLeast rightLowest right) (normal : -1074 < leftHighest - rightLowest + 1) :
    AtMost (leftHighest - rightLowest + 1) (UnpackedFloat.div Format.binary64 left right) := by
  cases rightFull with
  | @finite otherSign other otherExponent otherPositive otherMany otherLarge =>
      cases leftBounded with
      | zero sign => exact .zero _
      | @finite sign mantissa exponent positive few small =>
          rw [UnpackedFloat.div]
          simp only [divCore]
          -- The dividend is shifted up, whatever for, and its unit goes down as far.
          generalize Format.binary64.targetExponent _ = wanted
          generalize scaled : min (exponent - otherExponent) wanted = target
          generalize shifted : (exponent - otherExponent - target).toNat = count
          have bits : (mantissa <<< count / other).log2 ≤ 52 + count := by
            refine log2_le_of_lt (Nat.lt_of_le_of_lt (Nat.div_le_self _ _) ?_)
            rw [Nat.shiftLeft_eq, Nat.add_right_comm, Nat.pow_add]
            exact Nat.mul_lt_mul_of_pos_right few (Nat.two_pow_pos count)
          exact atMost_roundWithAccuracy (by omega) (by omega) normal

end Operands

theorem atMost_mul {left right : Float} {leftHighest rightHighest : Int}
    (leftBounded : AtMost leftHighest left.toModel.unpack)
    (rightBounded : AtMost rightHighest right.toModel.unpack)
    (normal : -1074 < leftHighest + rightHighest + 54)
    (fits : leftHighest + rightHighest + 54 ≤ 971) :
    AtMost (leftHighest + rightHighest + 54) (left * right).toModel.unpack :=
  atMost_pack (atMost_unpackedMul leftBounded rightBounded normal) (by omega) fits

theorem atMost_div {left right : Float} {leftHighest rightLowest : Int}
    (leftBounded : AtMost leftHighest left.toModel.unpack)
    (rightFull : AtLeast rightLowest right.toModel.unpack)
    (normal : -1074 < leftHighest - rightLowest + 1)
    (fits : leftHighest - rightLowest + 1 ≤ 971) :
    AtMost (leftHighest - rightLowest + 1) (left / right).toModel.unpack :=
  atMost_pack (atMost_unpackedDiv leftBounded rightFull normal) (by omega) fits

theorem atMost_billion : AtMost (-23) (1e9 : Float).toModel.unpack := by
  decide +kernel

theorem atMost_zero : AtMost (-1074) (0.0 : Float).toModel.unpack := by
  decide +kernel

end CallProfiler.Decimal
