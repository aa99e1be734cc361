import CallProfiler.Calibration.Trim
import CallProfiler.Proofs.Outcome
import Mathlib.Algebra.Group.Action.Defs
import Mathlib.Algebra.Order.BigOperators.Group.List
import Mathlib.Algebra.Order.Group.Nat

/-!
# Outliers

A trimmed mean withstands as many outliers as it leaves out trials at either end.
`below_sorted_iff` tells where a bound lies among sorted values, from how many of them are below
it; replacing a few values moves that place by no more than their number. So what is averaged lies
between values that were not replaced, and `combine_of_replaced` puts the mean there too.
-/

namespace CallProfiler.TrimPolicy

variable {values altered kept ascending : List UInt64} {count discard place : Nat}

/-! ## Ranks -/

/-- Whatever is at most something below the bound is below it as well. -/
def IsDownward (below : UInt64 → Bool) : Prop :=
  ∀ low high, low ≤ high → below high = true → below low = true

theorem isDownward_le (bound : UInt64) : IsDownward fun value => value ≤ bound := by
  intro low high ordered below
  rw [decide_eq_true_eq] at below ⊢
  exact UInt64.le_trans ordered below

theorem isDownward_lt (bound : UInt64) : IsDownward fun value => value < bound := by
  intro low high ordered below
  rw [decide_eq_true_eq] at below ⊢
  exact UInt64.lt_of_le_of_lt ordered below

/-- Ascending values below a bound fill the first places. -/
theorem below_getElem_iff {below : UInt64 → Bool} (downward : IsDownward below)
    (ordered : ascending.Pairwise (· ≤ ·)) (inside : place < ascending.length) :
    below ascending[place] = true ↔ place < ascending.countP below := by
  induction ascending generalizing place with
  | nil => cases inside
  | cons least others inductionHypothesis =>
      obtain ⟨lowest, ordered⟩ := List.pairwise_cons.1 ordered
      by_cases belowLeast : below least = true
      · rw [List.countP_cons_of_pos belowLeast]
        cases place with
        | zero => exact iff_of_true belowLeast (Nat.succ_pos _)
        | succ place =>
            rw [List.getElem_cons_succ, Nat.succ_lt_succ_iff]
            exact inductionHypothesis ordered (Nat.lt_of_succ_lt_succ inside)
      · -- Where the least value is not below the bound, none is.
        have none : ∀ value ∈ least :: others, ¬ below value = true := by
          intro value member isBelow
          rcases List.mem_cons.1 member with rfl | member
          · exact belowLeast isBelow
          · exact belowLeast (downward _ _ (lowest value member) isBelow)
        rw [List.countP_eq_zero.2 none]
        exact iff_of_false (none _ (List.getElem_mem inside)) (Nat.not_lt_zero _)

theorem sorted_perm (values : List UInt64) : (sorted values).Perm values :=
  List.mergeSort_perm _ _

theorem pairwise_sorted (values : List UInt64) : (sorted values).Pairwise (· ≤ ·) := by
  refine (List.pairwise_mergeSort ?_ ?_ values).imp of_decide_eq_true
  · intro low middle high first second
    exact isDownward_le high _ _ (of_decide_eq_true first) second
  · intro left right
    simpa using UInt64.le_total left right

@[simp] theorem length_sorted (values : List UInt64) : (sorted values).length = values.length :=
  (sorted_perm values).length_eq

/-- The order in which values come is lost when they are sorted. -/
theorem sorted_eq_of_perm {shuffled : List UInt64} (perm : shuffled.Perm values) :
    sorted shuffled = sorted values := by
  have same := ((sorted_perm shuffled).trans perm).trans (sorted_perm values).symm
  exact same.eq_of_pairwise (fun _ _ _ _ => UInt64.le_antisymm) (pairwise_sorted _)
    (pairwise_sorted _)

/-- The sorted value at a place is below a bound just where more values are than there are places
before it. -/
theorem below_sorted_iff {below : UInt64 → Bool} (downward : IsDownward below)
    (inside : place < (sorted values).length) :
    below (sorted values)[place] = true ↔ place < values.countP below := by
  rw [below_getElem_iff downward (pairwise_sorted values) inside, (sorted_perm values).countP_eq]

/-! ## Means -/

/-- A mean lies between bounds of its values. -/
theorem meanOf_within {lowest highest : Nat} (nonempty : values ≠ [])
    (within : ∀ value ∈ values, lowest ≤ value.toNat ∧ value.toNat ≤ highest) :
    lowest ≤ meanOf values ∧ meanOf values ≤ highest := by
  have positive := List.length_pos_iff.2 nonempty
  have least := List.card_nsmul_le_sum (values.map (·.toNat)) lowest
    (List.forall_mem_map.2 fun value member => (within value member).1)
  have most := List.sum_le_card_nsmul (values.map (·.toNat)) highest
    (List.forall_mem_map.2 fun value member => (within value member).2)
  rw [List.length_map, smul_eq_mul] at least most
  rw [meanOf, Checked.total_eq_sum, Nat.le_div_iff_mul_le positive, Nat.mul_comm lowest]
  exact ⟨least, Nat.div_le_of_le_mul most⟩

/-- A machine word's worth of words adds up to less than two words hold. -/
theorem total_lt_bound (fits : values.length < Width.bound 64) :
    Checked.total (values.map (·.toNat)) < Width.bound 128 := by
  have most := List.sum_le_card_nsmul (values.map (·.toNat)) (Width.bound 64)
    (List.forall_mem_map.2 fun value _ => Nat.le_of_lt value.toNat_lt)
  rw [List.length_map, smul_eq_mul] at most
  calc Checked.total (values.map (·.toNat)) ≤ values.length * Width.bound 64 := most
    _ < Width.bound 64 * Width.bound 64 := Nat.mul_lt_mul_of_pos_right fits (Width.bound_pos 64)
    _ = Width.bound 128 := by decide

/-! ## Trimming -/

/-- The values that are left when both ends of the sorted ones are cut off. -/
def middle (discard : Nat) (values : List UInt64) : List UInt64 :=
  ((sorted values).drop discard).take (values.length - 2 * discard)

theorem combine_trimmed (enough : 2 * discard < values.length)
    (fits : values.length < Width.bound 64) :
    (trimmed discard).combine values = .ok (meanOf (middle discard values)) := by
  have nonempty : ¬ values.isEmpty := by
    rw [List.isEmpty_iff_length_eq_zero]
    omega
  have both : Checked.multiply 64 2 discard = .ok (2 * discard) :=
    if_pos (Nat.lt_trans enough fits)
  rw [combine, if_neg nonempty]
  simp only [trimmedMean, both, ok_bind, length_sorted, if_neg (Nat.not_le.2 enough), middle]
  rfl

example : (trimmed 1).combine [100, 10, 12, 11, 1] = .ok 11 := by cbv

theorem middle_ne_nil (enough : 2 * discard < values.length) : middle discard values ≠ [] := by
  rw [← List.length_pos_iff, middle, List.length_take, List.length_drop, length_sorted]
  omega

/-- What is left has at least as many values on both sides as were cut off. -/
theorem exists_place_of_mem_middle {value : UInt64} (member : value ∈ middle discard values) :
    ∃ place, ∃ inside : place < (sorted values).length,
      discard ≤ place ∧ place + discard < values.length ∧ (sorted values)[place] = value := by
  obtain ⟨offset, within, found⟩ := List.mem_take_iff_getElem.1 member
  rw [List.length_drop, length_sorted] at within
  rw [List.getElem_drop] at found
  exact ⟨discard + offset, by rw [length_sorted]; omega, Nat.le_add_right _ _, by omega, found⟩

/-! ## Replaced values -/

/-- Some values of a list are replaced by others; the rest of them is kept. -/
inductive Replaced : Nat → List UInt64 → List UInt64 → List UInt64 → Prop where
  | nil : Replaced 0 [] [] []
  | keep {count : Nat} {values altered kept : List UInt64} (value : UInt64)
      (others : Replaced count values altered kept) :
      Replaced count (value :: values) (value :: altered) (value :: kept)
  | replace {count : Nat} {values altered kept : List UInt64} (value other : UInt64)
      (others : Replaced count values altered kept) :
      Replaced (count + 1) (value :: values) (other :: altered) kept

theorem Replaced.sublist (replaced : Replaced count values altered kept) :
    kept.Sublist altered := by
  induction replaced with
  | nil => exact .slnil
  | keep value _ inductionHypothesis => exact inductionHypothesis.cons_cons value
  | replace _ other _ inductionHypothesis => exact inductionHypothesis.cons other

theorem Replaced.length_eq (replaced : Replaced count values altered kept) :
    altered.length = values.length ∧ kept.length + count = values.length := by
  induction replaced with
  | nil => exact ⟨rfl, rfl⟩
  | keep _ _ inductionHypothesis =>
      simp only [List.length_cons]
      omega
  | replace _ _ _ inductionHypothesis =>
      simp only [List.length_cons]
      omega

/-- With too few other values to fill the places before it, a place holds nothing below the least
of the kept ones. -/
theorem le_sorted_of_sublist (sub : kept.Sublist altered)
    (few : altered.length ≤ kept.length + place) {lowest : UInt64}
    (least : ∀ value ∈ kept, lowest ≤ value) (inside : place < (sorted altered).length) :
    lowest ≤ (sorted altered)[place] := by
  rw [← UInt64.not_lt]
  intro smaller
  have many := (below_sorted_iff (isDownward_lt lowest) inside).1 (decide_eq_true smaller)
  have none : kept.countP (fun value => value < lowest) = 0 :=
    List.countP_eq_zero.2 fun value member => by simpa using least value member
  have lost := sub.le_countP fun value => value < lowest
  omega

/-- With too many kept values to fit the places before it, a place holds nothing above the greatest
of them. -/
theorem sorted_le_of_sublist (sub : kept.Sublist altered) (many : place < kept.length)
    {highest : UInt64} (greatest : ∀ value ∈ kept, value ≤ highest)
    (inside : place < (sorted altered).length) : (sorted altered)[place] ≤ highest := by
  have all : kept.countP (fun value => value ≤ highest) = kept.length :=
    List.countP_eq_length.2 fun value member => decide_eq_true (greatest value member)
  refine of_decide_eq_true ((below_sorted_iff (isDownward_le highest) inside).2 ?_)
  calc place < kept.countP (fun value => value ≤ highest) := by rwa [all]
    _ ≤ altered.countP (fun value => value ≤ highest) := sub.countP_le

theorem exists_extremes (nonempty : kept ≠ []) :
    ∃ lowest ∈ kept, ∃ highest ∈ kept, ∀ value ∈ kept, lowest ≤ value ∧ value ≤ highest := by
  have ordered := List.pairwise_iff_getElem.1 (pairwise_sorted kept)
  have positive : 0 < (sorted kept).length := by
    rw [length_sorted]
    exact List.length_pos_iff.2 nonempty
  have last := Nat.sub_lt positive Nat.one_pos
  refine ⟨(sorted kept)[0], (sorted_perm kept).mem_iff.1 (List.getElem_mem positive),
    (sorted kept)[(sorted kept).length - 1], (sorted_perm kept).mem_iff.1 (List.getElem_mem last),
    fun value member => ?_⟩
  obtain ⟨place, inside, rfl⟩ := List.getElem_of_mem ((sorted_perm kept).mem_iff.2 member)
  constructor
  · rcases Nat.eq_zero_or_pos place with rfl | later
    · exact UInt64.le_refl _
    · exact ordered 0 place positive inside later
  · rcases Nat.eq_or_lt_of_le (Nat.le_sub_one_of_lt inside) with same | earlier
    · simp only [same, UInt64.le_refl]
    · exact ordered place _ inside last earlier

/-- With no more values replaced than are cut off at either end, the trimmed mean of the trials
lies between the least and the greatest value that was kept. It needs no more than a machine word,
and the sum it comes from no more than two. The order of the trials does not matter. -/
theorem combine_of_replaced (replaced : Replaced count values altered kept)
    (few : count ≤ discard) (enough : 2 * discard < values.length)
    (fits : values.length < Width.bound 64) :
    ∃ combined, (trimmed discard).combine altered = .ok combined ∧
      (∃ lowest ∈ kept, ∃ highest ∈ kept,
        (∀ value ∈ kept, lowest ≤ value ∧ value ≤ highest) ∧
        lowest.toNat ≤ combined ∧ combined ≤ highest.toNat) ∧
      (∀ shuffled : List UInt64, shuffled.Perm altered →
        (trimmed discard).combine shuffled = .ok combined) ∧
      combined < Width.bound 64 ∧ Checked.total (altered.map (·.toNat)) < Width.bound 128 := by
  obtain ⟨sameLength, keptLength⟩ := replaced.length_eq
  have sub := replaced.sublist
  have nonempty : kept ≠ [] := by
    rw [← List.length_pos_iff]
    omega
  obtain ⟨lowest, isKept, highest, highestKept, extremes⟩ := exists_extremes nonempty
  rw [← sameLength] at enough fits
  have within : ∀ value ∈ middle discard altered,
      lowest.toNat ≤ value.toNat ∧ value.toNat ≤ highest.toNat := by
    intro value member
    obtain ⟨place, inside, low, high, rfl⟩ := exists_place_of_mem_middle member
    have least (value) (member : value ∈ kept) := (extremes value member).1
    have greatest (value) (member : value ∈ kept) := (extremes value member).2
    exact ⟨le_sorted_of_sublist sub (by omega) least inside,
      sorted_le_of_sublist sub (by omega) greatest inside⟩
  obtain ⟨low, high⟩ := meanOf_within (middle_ne_nil enough) within
  refine ⟨meanOf (middle discard altered), combine_trimmed enough fits,
    ⟨lowest, isKept, highest, highestKept, extremes, low, high⟩, ?_,
    Nat.lt_of_le_of_lt high highest.toNat_lt, total_lt_bound fits⟩
  intro shuffled perm
  rw [← perm.length_eq] at enough fits
  rw [combine_trimmed enough fits, middle, middle, sorted_eq_of_perm perm, perm.length_eq]

/-- One of three trials was the greatest number there is; the trimmed mean is not moved by it. -/
theorem combine_of_replaced_spike :
    ∃ combined, (trimmed 1).combine [10, 0xFFFFFFFFFFFFFFFF, 12] = .ok combined ∧
      10 ≤ combined ∧ combined ≤ 12 := by
  have replaced : Replaced 1 [10, 11, 12] [10, 0xFFFFFFFFFFFFFFFF, 12] [10, 12] :=
    .keep 10 (.replace 11 _ (.keep 12 .nil))
  obtain ⟨combined, done, ⟨lowest, isKept, highest, highestKept, -, low, high⟩, -⟩ :=
    combine_of_replaced replaced (Nat.le_refl 1) (by decide) (by decide)
  have bounds : ∀ value ∈ [(10 : UInt64), 12], 10 ≤ value.toNat ∧ value.toNat ≤ 12 := by simp
  exact ⟨combined, done, Nat.le_trans (bounds lowest isKept).1 low,
    Nat.le_trans high (bounds highest highestKept).2⟩

end CallProfiler.TrimPolicy
