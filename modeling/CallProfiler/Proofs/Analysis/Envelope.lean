import CallProfiler.Proofs.Analysis.Isolation
import CallProfiler.Proofs.CallTree.Load

/-!
# Analyses that come to an end

An analysis adds up times, calls and costs within machine widths, so it may fail at a sum that
leaves its width, and it fails in no other way. `ThreadFits` bounds what it can come to add up
by what the events of a thread hold together: where that fits, the analysis comes to an end, in
a profile or a refusal.
-/

namespace CallProfiler

/-- What the analysis of a thread can come to add up fits its widths. -/
structure ThreadFits (events : List Event) (calibration : Calibration) (mitigate : Bool) :
    Prop where
  few : events.length ≤ Width.bound 32
  times : (events.map (·.duration)).sum < Width.bound 64
  cpu : (events.map (·.cpu.toNat)).sum < Width.bound 64
  /-- Mitigation may raise a call to the sum of the calls inside it. -/
  load : mitigate = true → (Forest.ofEvents events).load < Width.bound 64
  cost : mitigate = true → calibration.Affords events.length

namespace CallTree

/-! ## What fails fails by an overflow -/

theorem overflows_withRootTotals (tree : CallTree) : Checked.Overflows tree.withRootTotals :=
  (Checked.Overflows.sum _ _).bind fun _ => (Checked.Overflows.sum _ _).bind fun _ => .ok _

theorem overflows_build (events : List Event) : Stop.Overflows (build events) := by
  have refusing {α : Type} (verdict : Except AnalysisError α) :
      Stop.Overflows (verdict.mapError Stop.refused) := by
    intro reached stopped
    obtain ⟨_, _, impossible⟩ := mapError_eq_error_iff.1 stopped
    cases impossible
  rw [build_eq]
  refine (refusing _).bind fun _ => Stop.Overflows.bind ?_ fun merged =>
    (Stop.Overflows.ofFault (overflows_withRootTotals merged)).bind fun _ => refusing _
  intro reached stopped
  rcases bind_eq_error_iff.1 stopped with merging | ⟨_, _, impossible⟩
  · obtain ⟨survivor, label, _, failed⟩ := Forest.stopped_of_mergeInto merging
    rw [Node.absorbSingle] at failed
    split at failed
    · exact Stop.Overflows.ofFault (overflows_absorb survivor label) reached failed
    · cases failed
  · cases impossible

theorem overflows_mitigateNode (calibration : Calibration) (children : Forest Node) (node : Node) :
    Checked.Overflows (node.mitigate calibration children) := by
  rw [Node.mitigate]
  split
  · exact .ok node
  · exact (Checked.Overflows.sum _ _).bind fun _ => (Checked.Overflows.add _ _ _).bind fun _ =>
      (Checked.Overflows.sum _ _).bind fun _ => .ok _

/-- A fault ends the walk of a mitigation only where a sum left its width. -/
theorem overflow_of_mitigate {calibration : Calibration} {forest mitigated : Forest Node}
    {reached : Fault} (stopped : forest.mitigate calibration = (mitigated, some reached)) :
    reached = .addOverflow := by
  induction forest generalizing mitigated with
  | nil => cases stopped
  | node label children siblings childrenHypothesis siblingsHypothesis =>
      rw [Forest.mitigate] at stopped
      split at stopped
      · rename_i inside
        cases stopped
        exact childrenHypothesis inside
      · split at stopped
        · rename_i own
          cases stopped
          exact overflows_mitigateNode calibration _ label _ own
        · cases beside : siblings.mitigate calibration with
          | mk rest reached? =>
              rw [beside] at stopped
              cases stopped
              exact siblingsHypothesis beside

theorem overflows_mitigated (calibration : Calibration) (tree : CallTree) :
    Checked.Overflows (tree.mitigated calibration) := by
  intro reached stopped
  rw [mitigated, mitigate] at stopped
  split at stopped
  · cases stopped
  · rename_i ended
    cases stopped
    split at ended
    · split at ended
      · rename_i inside
        cases ended
        exact overflow_of_mitigate inside
      · split at ended
        · rename_i totals
          cases ended
          exact overflows_withRootTotals _ _ totals
        · cases ended
    · cases ended

end CallTree

section Thread

variable {id : UInt32} {events : List Event} {calibration : Calibration} {mitigate : Bool}

theorem overflows_analyzeThread (id : UInt32) (events : List Event) (calibration : Calibration)
    (mitigate : Bool) : Stop.Overflows (analyzeThread id events calibration mitigate) := by
  rw [analyzeThread_eq]
  refine (CallTree.overflows_build events).bind fun tree => Stop.Overflows.bind ?_ fun full =>
    (Stop.Overflows.ofFault (CallTree.overflows_collapseRecursion full)).bind fun collapsed =>
      Stop.Overflows.bind ?_ fun stats => ?_
  · split
    · exact .ofFault (CallTree.overflows_mitigated calibration tree)
    · exact .of_completes fun reached => nofun
  · intro reached stopped
    cases checked : collapsed.checkRecursion with
    | error reason =>
        rw [CallTree.statistics_of_recursionDetected checked] at stopped
        cases stopped
    | ok =>
        rcases CallTree.statistics_of_checkRecursion checked with ⟨stats, done⟩ | overflowed
        · rw [done] at stopped
          cases stopped
        · rw [overflowed] at stopped
          cases stopped
          rfl
  · exact .of_completes fun reached => nofun

/-- The trees of a thread that fits come to be, and fit. -/
theorem ThreadFits.exists_stages (fits : ThreadFits events calibration mitigate)
    {tree : CallTree} (built : CallTree.build events = .ok tree) :
    ∃ full collapsed : CallTree,
      (if mitigate then tree.mitigated calibration else .ok tree) = .ok full ∧
      full.collapseRecursion = .ok collapsed ∧ full.Fits ∧ collapsed.Fits := by
  have treeFits := CallTree.fits_of_build built fits.few fits.times fits.cpu
  obtain ⟨full, mitigating, fullFits⟩ : ∃ full,
      (if mitigate then tree.mitigated calibration else .ok tree) = .ok full ∧ full.Fits := by
    cases mitigate with
    | false => exact ⟨tree, rfl, treeFits⟩
    | true =>
        have few : events.length < Width.bound 64 :=
          Nat.lt_of_le_of_lt fits.few (by decide)
        have counts : tree.children.total (·.count) ≤ events.length := by
          have total : tree.children.total (·.count) ≤ (events.map fun _ => 1).sum :=
            CallTree.total_of_build_le built fun _ _ _ done =>
              Nat.le_of_eq (Node.adds_count done)
          simpa using total
        exact treeFits.exists_mitigated (fits.cost rfl) few counts
          (Nat.lt_of_le_of_lt (CallTree.load_of_build_le built) (fits.load rfl))
  obtain ⟨collapsed, collapsing, collapsedFits⟩ := fullFits.exists_collapsed
  exact ⟨full, collapsed, mitigating, collapsing, fullFits, collapsedFits⟩

/-- The analysis of a thread that fits comes to an end. -/
theorem ThreadFits.completes (fits : ThreadFits events calibration mitigate) :
    Stop.Completes (analyzeThread id events calibration mitigate) := by
  have few : events.length < Width.bound 64 := Nat.lt_of_le_of_lt fits.few (by decide)
  rcases built : CallTree.build events with (reached | reason) | tree
  · exact absurd built (CallTree.completes_build few fits.times fits.cpu reached)
  · intro reached stopped
    rw [analyzeThread_eq, built] at stopped
    cases stopped
  · obtain ⟨full, collapsed, mitigating, collapsing, _, collapsedFits⟩ := fits.exists_stages built
    rw [analyzeThread_of_stages built mitigating collapsing]
    intro reached stopped
    rcases ended : collapsed.statistics with (other | reason) | stats
    · exact collapsedFits.completes_statistics other ended
    · rw [ended] at stopped
      cases stopped
    · rw [ended] at stopped
      cases stopped

/-- A profile of a thread that fits has trees that do. -/
theorem ThreadFits.fits_profile (fits : ThreadFits events calibration mitigate)
    {profile : ThreadProfile} (done : analyzeThread id events calibration mitigate = .ok profile) :
    profile.full.Fits ∧ profile.collapsed.Fits := by
  obtain ⟨tree, built, _⟩ := analyzeThread_eq_ok done
  obtain ⟨full, collapsed, mitigating, collapsing, fullFits, collapsedFits⟩ :=
    fits.exists_stages built
  rw [analyzeThread_of_stages built mitigating collapsing] at done
  obtain ⟨stats, _, rfl⟩ := map_eq_ok_iff.1 done
  exact ⟨fullFits, collapsedFits⟩

end Thread

/-! ## Logs -/

theorem overflows_analyzeThreads (calibration : Calibration) (mitigate : Bool)
    (entries : List (UInt32 × List Event)) :
    Checked.Overflows (analyzeThreads calibration mitigate entries) := by
  induction entries with
  | nil => exact .ok ([], [])
  | cons entry rest inductionHypothesis =>
      obtain ⟨id, events⟩ := entry
      rw [analyzeThreads]
      split
      · rename_i outcome
        intro reached stopped
        cases stopped
        exact overflows_analyzeThread id events calibration mitigate _ outcome
      · exact inductionHypothesis.bind fun _ => .ok _
      · exact inductionHypothesis.bind fun _ => .ok _

theorem exists_analyzeThreads {calibration : Calibration} {mitigate : Bool}
    {entries : List (UInt32 × List Event)}
    (complete : ∀ entry ∈ entries,
      Stop.Completes (analyzeThread entry.1 entry.2 calibration mitigate)) :
    ∃ result, analyzeThreads calibration mitigate entries = .ok result := by
  induction entries with
  | nil => exact ⟨_, rfl⟩
  | cons entry rest inductionHypothesis =>
      obtain ⟨id, events⟩ := entry
      obtain ⟨here, later⟩ := List.forall_mem_cons.1 complete
      obtain ⟨result, done⟩ := inductionHypothesis later
      rw [analyzeThreads]
      split
      · rename_i reached outcome
        exact absurd outcome (here reached)
      · exact exists_ok_bind done ⟨_, rfl⟩
      · exact exists_ok_bind done ⟨_, rfl⟩

/-- An analysis of a log fails only at a sum, and only if some thread does not fit. -/
theorem overflow_of_analyzeLog {log : EventLog} {mitigate : Bool} {reached : Fault}
    (stopped : analyzeLog log mitigate = .error (.fault reached)) :
    reached = .addOverflow ∧
      ∃ entry ∈ log.threads.entries, ¬ ThreadFits entry.2 log.calibration mitigate := by
  constructor
  · rcases outcome : analyzeThreads log.calibration mitigate log.threads.entries with
      other | ⟨profiles, failures⟩
    · have same : analyzeLog log mitigate = .error (.fault other) := by
        rw [analyzeLog, outcome]
        rfl
      rw [same] at stopped
      cases stopped
      exact overflows_analyzeThreads _ _ _ _ outcome
    · rw [analyzeLog_of_analyzeThreads outcome] at stopped
      split at stopped <;> cases stopped
  · by_contra none
    have fits : ∀ entry ∈ log.threads.entries, ThreadFits entry.2 log.calibration mitigate :=
      fun entry member => by_contra fun unfit => none ⟨entry, member, unfit⟩
    obtain ⟨⟨profiles, failures⟩, done⟩ := exists_analyzeThreads fun entry member =>
      (fits entry member).completes
    rw [analyzeLog_of_analyzeThreads done] at stopped
    split at stopped <;> cases stopped

end CallProfiler
