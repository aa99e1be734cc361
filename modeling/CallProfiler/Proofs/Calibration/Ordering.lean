import CallProfiler.Capture.Measurement
import CallProfiler.Proofs.Calibration.Outliers

/-!
# Trials in order

Combining trials keeps their order. If no value of one list is above its partner in another,
then none is above the value of its rank there once both are sorted, whichever partners the
sorting parts (`forall₂_sorted`). Means and middle values of such lists are in the same order,
and so are the two costs of a calibration whose trials each cost the calls around them no less
than they cost themselves (`childrenTime_covers_selfTime`).
-/

namespace CallProfiler

namespace TrimPolicy

variable {policy : TrimPolicy} {values lower upper : List UInt64} {discard : Nat}

/-! ## Values by rank -/

/-- Of values that are nowhere above their partners, at least as many lie below a bound. -/
theorem countP_le_of_forall₂ {below : UInt64 → Bool} (downward : IsDownward below)
    (ordered : List.Forall₂ (· ≤ ·) lower upper) : upper.countP below ≤ lower.countP below := by
  induction ordered with
  | nil => exact Nat.le_refl _
  | @cons low high _ _ first _ inductionHypothesis =>
      rw [List.countP_cons, List.countP_cons]
      by_cases belowHigh : below high = true
      · rw [if_pos belowHigh, if_pos (downward low high first belowHigh)]
        exact Nat.succ_le_succ inductionHypothesis
      · rw [if_neg belowHigh]
        exact Nat.le_trans inductionHypothesis (Nat.le_add_right _ _)

/-- Values that are nowhere above their partners are, sorted, nowhere above those of their
rank. -/
theorem forall₂_sorted (ordered : List.Forall₂ (· ≤ ·) lower upper) :
    List.Forall₂ (· ≤ ·) (sorted lower) (sorted upper) := by
  refine List.forall₂_iff_get.2 ⟨by simp only [length_sorted, ordered.length_eq], ?_⟩
  intro rank inLower inUpper
  simp only [List.get_eq_getElem]
  have downward := isDownward_le (sorted upper)[rank]
  have many := (below_sorted_iff downward inUpper).1 (decide_eq_true (UInt64.le_refl _))
  have more := Nat.lt_of_lt_of_le many (countP_le_of_forall₂ downward ordered)
  exact of_decide_eq_true ((below_sorted_iff downward inLower).2 more)

/-- The value in the middle of the sorted ones, the later of two; zero for no values. -/
def median (values : List UInt64) : Nat :=
  ((sorted values)[values.length / 2]?.map (·.toNat)).getD 0

theorem median_nil : median [] = 0 := by simp [median, sorted]

theorem median_le_median (ordered : List.Forall₂ (· ≤ ·) lower upper) :
    median lower ≤ median upper := by
  have sameLength := ordered.length_eq
  rcases Nat.eq_zero_or_pos lower.length with empty | positive
  · cases List.eq_nil_of_length_eq_zero empty
    exact median_nil ▸ Nat.zero_le _
  · have half := Nat.div_lt_self positive Nat.one_lt_two
    have inLower : lower.length / 2 < (sorted lower).length := by rwa [length_sorted]
    have inUpper : lower.length / 2 < (sorted upper).length := by
      rwa [length_sorted, ← sameLength]
    rw [median, median, ← sameLength, List.getElem?_eq_getElem inLower,
      List.getElem?_eq_getElem inUpper]
    exact (List.forall₂_iff_get.1 (forall₂_sorted ordered)).2 _ inLower inUpper

theorem meanOf_le_meanOf (ordered : List.Forall₂ (· ≤ ·) lower upper) :
    meanOf lower ≤ meanOf upper := by
  have sums : (lower.map (·.toNat)).sum ≤ (upper.map (·.toNat)).sum :=
    List.Forall₂.sum_le_sum (List.forall₂_map_left_iff.2 (List.forall₂_map_right_iff.2 ordered))
  rw [meanOf, meanOf, Checked.total_eq_sum, Checked.total_eq_sum, ordered.length_eq]
  exact Nat.div_le_div_right sums

theorem middle_ordered (ordered : List.Forall₂ (· ≤ ·) lower upper) :
    List.Forall₂ (· ≤ ·) (middle discard lower) (middle discard upper) := by
  rw [middle, middle, ordered.length_eq]
  exact List.forall₂_take _ (List.forall₂_drop _ (forall₂_sorted ordered))

/-! ## Combined values -/

/-- The policies that go by nothing but the ranks of the values, with a cut that a machine word
can hold for both ends together. -/
def GoesByRank : TrimPolicy → Prop
  | .mean => True
  | .trimmed discard => 2 * discard < Width.bound 64
  | .sigmaClip _ => False

theorem combine_mean (values : List UInt64) : mean.combine values = .ok (meanOf values) := by
  cases values with
  | nil => rfl
  | cons value rest => rfl

/-- Where the cut leaves nothing, the value in the middle stands for all. -/
theorem combine_trimmed_eq (fits : 2 * discard < Width.bound 64) (values : List UInt64) :
    (trimmed discard).combine values =
      .ok (if values.length ≤ 2 * discard then median values
        else meanOf (middle discard values)) := by
  have both : Checked.multiply 64 2 discard = .ok (2 * discard) := if_pos fits
  cases values with
  | nil =>
      rw [List.length_nil, if_pos (Nat.zero_le _), median_nil]
      rfl
  | cons value rest =>
      show trimmedMean discard (value :: rest) = _
      simp only [trimmedMean, both, ok_bind, length_sorted]
      split <;> rfl

theorem median_lt_bound (values : List UInt64) : median values < Width.bound 64 := by
  rw [median]
  cases (sorted values)[values.length / 2]? with
  | none => exact Width.bound_pos 64
  | some value => exact value.toNat_lt

theorem meanOf_lt_bound (values : List UInt64) : meanOf values < Width.bound 64 := by
  rcases eq_or_ne values [] with rfl | nonempty
  · exact Width.bound_pos 64
  · have within := (meanOf_within nonempty fun value _ =>
      ⟨Nat.zero_le value.toNat, Nat.le_pred_of_lt value.toNat_lt⟩).2
    exact Nat.lt_of_le_of_lt within (Nat.pred_lt (Nat.ne_of_gt (Width.bound_pos 64)))

/-- Values that are nowhere above their partners combine to no more, in a machine word. -/
theorem combine_ordered (ranked : policy.GoesByRank)
    (ordered : List.Forall₂ (· ≤ ·) lower upper) :
    ∃ low high, policy.combine lower = .ok low ∧ policy.combine upper = .ok high ∧
      low ≤ high ∧ high < Width.bound 64 := by
  cases policy with
  | mean =>
      exact ⟨_, _, combine_mean lower, combine_mean upper, meanOf_le_meanOf ordered,
        meanOf_lt_bound upper⟩
  | trimmed discard =>
      refine ⟨_, _, combine_trimmed_eq ranked lower, combine_trimmed_eq ranked upper, ?_⟩
      -- Both lists are of one length, so both are cut or neither is.
      rw [ordered.length_eq]
      split
      · exact ⟨median_le_median ordered, median_lt_bound upper⟩
      · exact ⟨meanOf_le_meanOf (middle_ordered ordered), meanOf_lt_bound _⟩
  | sigmaClip bound => exact ranked.elim

end TrimPolicy

/-! ## Calibrations -/

namespace Capture

/-- The outer interval of a trial, its first event, covers the times of the intervals in it. -/
def CoversSamples : List Event → Prop
  | [] => True
  | outer :: samples => Checked.total (samples.map (·.duration)) ≤ outer.duration

theorem exists_trialOfEvents {events : List Event} (covers : CoversSamples events) :
    ∃ trial, trialOfEvents events = .ok trial ∧ trial.selfTime ≤ trial.childrenTime := by
  cases events with
  | nil => exact ⟨⟨0, 0⟩, rfl, UInt64.le_refl 0⟩
  | cons outer samples =>
      have fits := Nat.lt_of_le_of_lt covers outer.duration_lt
      have summed : Checked.sum 64 (samples.map (·.duration)) =
          .ok (Checked.total (samples.map (·.duration))) :=
        Checked.sum_eq_ok_iff.2 ⟨fits, rfl⟩
      refine ⟨⟨.ofNat _, .ofNat outer.duration⟩, bind_eq_ok_iff.2 ⟨_, summed, rfl⟩, ?_⟩
      rw [UInt64.le_iff_toNat_le, UInt64.toNat_ofNat_of_lt' fits,
        UInt64.toNat_ofNat_of_lt' outer.duration_lt]
      exact covers

/-- Trials whose outer intervals cover the others measure no less for the children. -/
theorem exists_trials {runs : List (List Event)} (covers : ∀ events ∈ runs, CoversSamples events) :
    ∃ trials, runs.mapM trialOfEvents = .ok trials ∧
      List.Forall₂ (· ≤ ·) (trials.map (·.selfTime)) (trials.map (·.childrenTime)) := by
  induction runs with
  | nil => exact ⟨[], rfl, .nil⟩
  | cons events rest inductionHypothesis =>
      obtain ⟨covered, covers⟩ := List.forall_mem_cons.1 covers
      obtain ⟨trial, measured, less⟩ := exists_trialOfEvents covered
      obtain ⟨trials, others, ordered⟩ := inductionHypothesis covers
      refine ⟨trial :: trials, ?_, .cons less ordered⟩
      rw [List.mapM_cons]
      exact bind_eq_ok_iff.2 ⟨trial, measured, bind_eq_ok_iff.2 ⟨trials, others, rfl⟩⟩

end Capture

namespace Calibration

/-- A policy that goes by ranks keeps the order of its lists of values. So if in every trial the
outer interval covers the samples, then there is a calibration, and in it the children cost no
less than the calls themselves. -/
theorem childrenTime_covers_selfTime {settings : CalibrationSettings}
    (ranked : settings.trim.GoesByRank) :
    (∀ lower upper, List.Forall₂ (· ≤ ·) lower upper →
      ∃ low high, settings.trim.combine lower = .ok low ∧ settings.trim.combine upper = .ok high ∧
        low ≤ high ∧ high < Width.bound 64) ∧
    ∀ runs : List (List Event), (∀ events ∈ runs, Capture.CoversSamples events) →
      ∃ trials calibration, runs.mapM Capture.trialOfEvents = .ok trials ∧
        ofTrials settings trials = .ok calibration ∧
        calibration.selfTime ≤ calibration.childrenTime := by
  refine ⟨fun lower upper ordered => TrimPolicy.combine_ordered ranked ordered, ?_⟩
  intro runs covers
  obtain ⟨trials, measured, ordered⟩ := Capture.exists_trials covers
  by_cases unmeasured : settings.samples = 0 ∨ settings.trials = 0
  · exact ⟨trials, none, measured, if_pos unmeasured, UInt64.le_refl 0⟩
  · obtain ⟨low, high, ofSelf, ofChildren, less, fits⟩ := TrimPolicy.combine_ordered ranked ordered
    refine ⟨trials, ⟨settings.samples, .ofNat low, .ofNat high⟩, measured, ?_, ?_⟩
    · rw [ofTrials, if_neg unmeasured, ofSelf, ofChildren]
      rfl
    · rw [UInt64.le_iff_toNat_le, UInt64.toNat_ofNat_of_lt' (Nat.lt_of_le_of_lt less fits),
        UInt64.toNat_ofNat_of_lt' fits]
      exact less

/-- The events of a trial with one sample, by the times of the two intervals. -/
def oneSample (outer sample : UInt64) : List Event :=
  [⟨"outer", 0, false, false, 0, outer, 0⟩, ⟨"sample", 1, false, false, 0, sample, 0⟩]

/-- Three trials of which more is cut off than there is, so that the value in the middle counts.
It comes from one trial for the samples and from another for the intervals around them. -/
theorem childrenTime_covers_selfTime_crossed :
    (TrimPolicy.trimmed 2).GoesByRank ∧
      (∀ events ∈ [oneSample 35 30, oneSample 90 20, oneSample 25 10],
        Capture.CoversSamples events) ∧
      ∃ trials calibration,
        [oneSample 35 30, oneSample 90 20, oneSample 25 10].mapM Capture.trialOfEvents =
          .ok trials ∧
        ofTrials ⟨1, 3, .trimmed 2⟩ trials = .ok calibration ∧
        calibration.selfTime ≤ calibration.childrenTime := by
  have ranked : (TrimPolicy.trimmed 2).GoesByRank := by
    show 2 * 2 < Width.bound 64
    decide
  have covers : ∀ events ∈ [oneSample 35 30, oneSample 90 20, oneSample 25 10],
      Capture.CoversSamples events := by
    simp [oneSample, Capture.CoversSamples, Event.duration]
  exact ⟨ranked, covers,
    (@childrenTime_covers_selfTime ⟨1, 3, .trimmed 2⟩ ranked).2 _ covers⟩

end Calibration

end CallProfiler
