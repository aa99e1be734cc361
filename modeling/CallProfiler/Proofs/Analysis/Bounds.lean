import CallProfiler.Proofs.Analysis.Envelope
import CallProfiler.Proofs.CallTree.Callees

/-!
# Events that cannot overflow an analysis

What can go wrong with the sums of an analysis can be seen from the events: how many they are,
how long they took together, and whether each lasted at least as long as those called directly
inside it. `completes_of_withinBounds` says that such a list is analysed without any sum or
level leaving its width. That a collapsed node may be shorter than its children does no harm,
for no sum runs over more than the totals of the whole tree, and these only fall.
-/

namespace CallProfiler

/-- The bounds within which the events of a thread are analysed. -/
structure WithinBounds (events : List Event) (calibration : Calibration) : Prop where
  few : events.length < Width.bound 32
  times : (events.map (·.duration)).sum < Width.bound 64
  cpu : (events.map (·.cpu.toNat)).sum < Width.bound 64
  covers : CoversCallees events
  cost : calibration.isCalibrated = true → calibration.Affords events.length

/-! ## Levels -/

/-- Reduction makes no path longer. -/
theorem CallPath.length_reduced_le (path : CallPath) : path.reduced.length ≤ path.length := by
  induction path using reduced.induct with
  | case1 path none =>
      obtain rfl := List.getLast?_eq_none_iff.1 none
      rw [reduced_nil]
  | case2 path last isLast inductionHypothesis =>
      have shorter := length_before_last isLast
      rw [reduced_of_last isLast, List.length_append, List.length_singleton]
      omega

namespace CallTree

variable {events : List Event} {tree : CallTree}

/-- No path of a tree that was made of events is longer than the levels of events reach. -/
theorem Derived.length_path_le (derived : Derived events tree) :
    ∀ path ∈ (tree.children.located []).map (·.1), path.length ≤ Width.bound 31 := by
  induction derived with
  | built done =>
      intro path member
      obtain ⟨call, inCalls, rfl⟩ := List.mem_map.1 ((mem_paths_of_build done path).1 member)
      obtain ⟨depth, level, length⟩ :=
        Call.length_path_of_mem_after (build_eq_ok done).1 OpenPath.surrounds_nil inCalls
      have bound := call.event.level.toInt_lt
      rw [length]
      simp only [Width.bound]
      omega
  | mitigated _ _ done inductionHypothesis =>
      rw [(retimed_of_mitigated done).paths]
      exact inductionHypothesis
  | collapsed _ done inductionHypothesis =>
      intro path member
      obtain ⟨place, inTree, _, rfl⟩ := (mem_paths_of_collapse done path).1 member
      exact Nat.le_trans (CallPath.length_reduced_le place.1)
        (inductionHypothesis _ (List.mem_map_of_mem inTree))
  | merged derived done inductionHypothesis =>
      rw [derived.sound.merging.1] at done
      cases done
      exact inductionHypothesis
  | mergedStrictly derived done inductionHypothesis =>
      rw [derived.sound.merging.2] at done
      cases done
      exact inductionHypothesis

/-- The levels of a tree that was made of events fit their width. -/
theorem Derived.level_fits (derived : Derived events tree) :
    ∀ node ∈ tree.preorder, Width.fitsSigned 32 node.level = true := by
  rw [preorder, whole, Forest.preorder, Forest.preorder, List.append_nil, List.forall_mem_cons]
  constructor
  · rw [derived.sound.rootLevel]
    decide
  · intro node member
    rw [← Forest.map_snd_located []] at member
    obtain ⟨place, located, rfl⟩ := List.mem_map.1 member
    have level := derived.sound.levels place located
    have short := derived.length_path_le _ (List.mem_map_of_mem located)
    have path := congrArg List.length (Forest.dropLast_concat_of_mem_located located)
    rw [List.length_append, List.length_singleton] at path
    have natural : place.2.level = (place.1.dropLast.length : Nat) := by omega
    rw [natural, Width.fitsSigned_natCast]
    exact Nat.lt_of_lt_of_le (by omega) short

end CallTree

/-! ## Sums -/

section Thread

variable {id : UInt32} {events : List Event} {calibration : Calibration} {mitigate : Bool}

/-- Costs that were not measured are none. -/
theorem WithinBounds.affords (within : WithinBounds events calibration) :
    calibration.Affords events.length := by
  by_cases calibrated : calibration.isCalibrated = true
  · exact within.cost calibrated
  · have noSamples : calibration.samples = 0 := by simpa [Calibration.isCalibrated] using calibrated
    rw [Calibration.Affords, noSamples, UInt32.toNat_zero, Nat.div_zero]
    exact Width.bound_pos 64

theorem WithinBounds.threadFits (within : WithinBounds events calibration)
    (accepted : OpenPath.check [] 0 events = .ok ()) :
    ThreadFits events calibration mitigate where
  few := Nat.le_of_lt within.few
  times := within.times
  cpu := within.cpu
  load _ := (Forest.load_ofEvents accepted within.covers).symm ▸ within.times
  cost _ := within.affords

/-- A profile of trees that fit counts its events and frames within their widths. -/
theorem counts_of_fits {profile : ThreadProfile}
    (done : analyzeThread id events calibration mitigate = .ok profile)
    (fits : profile.full.Fits) :
    profile.eventCount = .ok events.length ∧ profile.frameCount < Width.bound 64 ∧
      profile.frameTime < Width.bound 64 := by
  have frames {quantity : Node → Nat}
      (total : profile.full.children.total quantity < Width.bound 64) :
      (profile.full.frameNode?.map quantity).getD 0 < Width.bound 64 := by
    have top : (profile.full.frameNode?.map quantity).getD 0 ≤
        (profile.full.children.tops.map quantity).sum := by
      rw [CallTree.frameNode?]
      split
      · cases profile.full.children.tops <;> simp
      · exact Nat.zero_le _
    exact Nat.lt_of_le_of_lt (Nat.le_trans top (Forest.sum_tops_le_total quantity _)) total
  refine ⟨?_, frames fits.children.count, frames fits.children.realtime⟩
  obtain ⟨tree, built, retimed, _⟩ := analyzeThread_eq_ok done
  have counts := CallTree.sum_counts_of_build built retimed
  have room := fits.children.count
  rw [Forest.total, counts] at room
  exact Checked.sum_eq_ok_iff.2 ⟨by rwa [Checked.total_eq_sum, counts], counts.symm⟩

/-- Within the bounds an analysis comes to a profile or a refusal, the level of every node of
every tree on the way fits its width, and so does what a profile counts. -/
theorem completes_of_withinBounds (within : WithinBounds events calibration) (id : UInt32)
    (mitigate : Bool) :
    Stop.Completes (analyzeThread id events calibration mitigate) ∧
      (∀ tree, CallTree.Derived events tree →
        ∀ node ∈ tree.preorder, Width.fitsSigned 32 node.level = true) ∧
      ∀ profile, analyzeThread id events calibration mitigate = .ok profile →
        profile.eventCount = .ok events.length ∧ profile.frameCount < Width.bound 64 ∧
          profile.frameTime < Width.bound 64 := by
  refine ⟨?_, fun tree derived => derived.level_fits, fun profile done => ?_⟩
  · cases checked : OpenPath.check [] 0 events with
    | error reason =>
        intro reached stopped
        rw [analyzeThread_eq, CallTree.build_eq, checked] at stopped
        cases stopped
    | ok => exact (within.threadFits checked).completes
  · obtain ⟨tree, built, _⟩ := analyzeThread_eq_ok done
    have fits : ThreadFits events calibration mitigate :=
      within.threadFits (CallTree.build_eq_ok built).1
    exact counts_of_fits done (fits.fits_profile done).1

theorem completes_of_withinBounds_intertwined :
    WithinBounds CallTree.intertwined ⟨100, 200, 300⟩ ∧
      Stop.Completes (analyzeThread 7 CallTree.intertwined ⟨100, 200, 300⟩ true) ∧
      ∃ profile, analyzeThread 7 CallTree.intertwined ⟨100, 200, 300⟩ true = .ok profile ∧
        profile.eventCount = .ok 8 := by
  have within : WithinBounds CallTree.intertwined ⟨100, 200, 300⟩ := by
    constructor <;> decide
  obtain ⟨completes, _, counts⟩ := completes_of_withinBounds within 7 true
  exact ⟨within, completes, _, rfl, (counts _ rfl).1⟩

end Thread

end CallProfiler
