import CallProfiler.Proofs.Analysis.Isolation
import CallProfiler.Proofs.CallTree.Untimed
import Mathlib.Data.List.Forall2

/-!
# Runs with and without mitigation

Mitigation changes times, and times flow through collapsing and summing up. No decision is made
by them on the way: `analyzeLog_agrees` compares the two runs of a log, thread by thread and node
by node.
-/

namespace CallProfiler

/-- Two outcomes are one refusal, or values that are related. -/
inductive Agree {Reason α : Type} (related : α → α → Prop) :
    Except (Stop Reason) α → Except (Stop Reason) α → Prop
  | refused (reason : Reason) : Agree related (refuse reason) (refuse reason)
  | values {first second : α} : related first second → Agree related (.ok first) (.ok second)

/-- Profiles that have the same nodes in the same places and entries of the same names, which
differ in elapsed times and the mark of mitigation only. -/
structure ThreadProfile.SameButTimes (first second : ThreadProfile) : Prop where
  id : first.id = second.id
  full : first.full.untimed = second.full.untimed
  collapsed : first.collapsed.untimed = second.collapsed.untimed
  stats : (first.stats.map FunctionStat.untimed).Perm (second.stats.map FunctionStat.untimed)

/-- Runs with the same threads and failures in the same order. -/
structure RunProfile.SameButTimes (first second : RunProfile) : Prop where
  calibration : first.calibration = second.calibration
  threads : List.Forall₂ ThreadProfile.SameButTimes first.threads second.threads
  failures : first.failures = second.failures

theorem Agree.map {Reason α β : Type} {related : α → α → Prop} {also : β → β → Prop}
    {first second : Except (Stop Reason) α} {one other : α → β} (agree : Agree related first second)
    (carries : ∀ left right, related left right → also (one left) (other right)) :
    Agree also (first.map one) (second.map other) := by
  cases agree with
  | refused reason => exact .refused reason
  | values same => exact .values (carries _ _ same)

namespace CallTree

variable {first second : CallTree}

theorem untimed_of_collapse {firstCollapsed secondCollapsed : CallTree}
    (same : first.untimed = second.untimed)
    (firstDone : first.collapseRecursion = .ok firstCollapsed)
    (secondDone : second.collapseRecursion = .ok secondCollapsed) :
    firstCollapsed.untimed = secondCollapsed.untimed := by
  have along := collapseRecursion_untimed firstDone
  rw [same, collapseRecursion_untimed secondDone] at along
  injection along with collapsed
  exact collapsed.symm

theorem perm_totals_of_statistics {tree : CallTree} {stats : List FunctionStat}
    (done : tree.statistics = .ok stats) :
    ∃ totals, tree.totalsByName = .ok totals ∧ stats.Perm totals := by
  obtain ⟨_, _, done⟩ := bind_eq_ok_iff.1 done
  obtain ⟨totals, added, done⟩ := bind_eq_ok_iff.1 done
  cases done
  exact ⟨totals, Stop.ofFault_eq_ok_iff.1 added, List.mergeSort_perm _ _⟩

/-- Statistics of trees that differ in times differ in times, and are refused alike. -/
theorem statistics_agree (same : first.untimed = second.untimed)
    (firstCompletes : Stop.Completes first.statistics)
    (secondCompletes : Stop.Completes second.statistics) :
    Agree (fun left right =>
        (left.map FunctionStat.untimed).Perm (right.map FunctionStat.untimed))
      first.statistics second.statistics := by
  have checks : first.checkRecursion = second.checkRecursion := by
    rw [← checkRecursion_untimed first, same, checkRecursion_untimed]
  cases checked : second.checkRecursion with
  | error reason =>
      rw [statistics_of_recursionDetected checked,
        statistics_of_recursionDetected (checks.trans checked)]
      exact .refused reason
  | ok =>
      rcases statistics_of_checkRecursion (checks.trans checked) with
        ⟨firstStats, firstDone⟩ | overflowed
      · rcases statistics_of_checkRecursion checked with ⟨secondStats, secondDone⟩ | overflowed
        · obtain ⟨firstTotals, firstAdded, firstPerm⟩ := perm_totals_of_statistics firstDone
          obtain ⟨secondTotals, secondAdded, secondPerm⟩ := perm_totals_of_statistics secondDone
          have along := totalsByName_untimed firstAdded
          rw [same, totalsByName_untimed secondAdded] at along
          injection along with totals
          rw [firstDone, secondDone]
          refine .values ((firstPerm.map _).trans ?_)
          rw [← totals]
          exact (secondPerm.map _).symm
        · exact absurd overflowed (secondCompletes _)
      · exact absurd overflowed (firstCompletes _)

end CallTree

section Threads

variable {id : UInt32} {events : List Event} {calibration : Calibration} {mitigate : Bool}

/-- What the analysis of a thread with a tree did before its statistics. -/
theorem analyzeThread_of_build {tree : CallTree} (built : CallTree.build events = .ok tree)
    (completes : Stop.Completes (analyzeThread id events calibration mitigate)) :
    ∃ full collapsed : CallTree, full.untimed = tree.untimed ∧
      full.collapseRecursion = .ok collapsed ∧ Stop.Completes collapsed.statistics ∧
      analyzeThread id events calibration mitigate =
        collapsed.statistics.map fun stats => { id, full, collapsed, stats } := by
  have restated : analyzeThread id events calibration mitigate = (do
      let full ← Stop.ofFault (if mitigate then tree.mitigated calibration else .ok tree)
      let collapsed ← Stop.ofFault full.collapseRecursion
      let stats ← collapsed.statistics
      return { id, full, collapsed, stats }) := by
    rw [analyzeThread_eq, built]
    cases mitigate <;> rfl
  rw [restated] at completes
  obtain ⟨full, done, completes⟩ := completes.exists_ok
  obtain ⟨collapsed, collapsing, completes⟩ := completes.exists_ok
  refine ⟨full, collapsed, ?_, collapsing, completes.of_bind, ?_⟩
  · cases mitigate with
    | false =>
        cases done
        rfl
    | true => exact CallTree.untimed_of_mitigated (CallTree.build_eq_ok built).2.2.2.1 done
  · exact analyzeThread_of_stages built done collapsing

/-- A thread has one profile with mitigation and without, times apart, or is refused alike. -/
theorem analyzeThread_agrees
    (mitigatedCompletes : Stop.Completes (analyzeThread id events calibration true))
    (plainCompletes : Stop.Completes (analyzeThread id events calibration false)) :
    Agree ThreadProfile.SameButTimes (analyzeThread id events calibration true)
      (analyzeThread id events calibration false) := by
  rcases built : CallTree.build events with (reached | reason) | tree
  · exact absurd (by rw [analyzeThread_eq, built]; rfl) (plainCompletes reached)
  · rw [analyzeThread_eq, analyzeThread_eq, built]
    exact .refused reason
  · obtain ⟨first, firstCollapsed, firstSame, firstDone, firstCompletes, firstEq⟩ :=
      analyzeThread_of_build built mitigatedCompletes
    obtain ⟨second, secondCollapsed, secondSame, secondDone, secondCompletes, secondEq⟩ :=
      analyzeThread_of_build built plainCompletes
    have full : first.untimed = second.untimed := firstSame.trans secondSame.symm
    have collapsed := CallTree.untimed_of_collapse full firstDone secondDone
    rw [firstEq, secondEq]
    exact (CallTree.statistics_agree collapsed firstCompletes secondCompletes).map
      fun left right stats => ⟨rfl, full, collapsed, stats⟩

/-- Threads have the same profiles and failures, one by one. -/
theorem analyzeThreads_agree {entries : List (UInt32 × List Event)}
    {first second : List ThreadProfile} {firstFailures secondFailures : List ThreadFailure}
    (mitigated : analyzeThreads calibration true entries = .ok (first, firstFailures))
    (plain : analyzeThreads calibration false entries = .ok (second, secondFailures)) :
    List.Forall₂ ThreadProfile.SameButTimes first second ∧ firstFailures = secondFailures := by
  induction entries generalizing first second firstFailures secondFailures with
  | nil =>
      cases mitigated
      cases plain
      exact ⟨.nil, rfl⟩
  | cons entry rest inductionHypothesis =>
      obtain ⟨id, events⟩ := entry
      rw [analyzeThreads] at mitigated plain
      have agree : Agree ThreadProfile.SameButTimes (analyzeThread id events calibration true)
          (analyzeThread id events calibration false) := by
        refine analyzeThread_agrees (fun reached failed => ?_) fun reached failed => ?_
        · rw [failed] at mitigated
          cases mitigated
        · rw [failed] at plain
          cases plain
      generalize analyzeThread id events calibration true = one at agree mitigated
      generalize analyzeThread id events calibration false = other at agree plain
      cases agree with
      | refused error =>
          obtain ⟨⟨firstRest, firstRefused⟩, firstDone, firstEq⟩ := bind_eq_ok_iff.1 mitigated
          obtain ⟨⟨secondRest, secondRefused⟩, secondDone, secondEq⟩ := bind_eq_ok_iff.1 plain
          cases firstEq
          cases secondEq
          obtain ⟨profiles, failures⟩ := inductionHypothesis firstDone secondDone
          exact ⟨profiles, by rw [failures]⟩
      | values same =>
          obtain ⟨⟨firstRest, firstRefused⟩, firstDone, firstEq⟩ := bind_eq_ok_iff.1 mitigated
          obtain ⟨⟨secondRest, secondRefused⟩, secondDone, secondEq⟩ := bind_eq_ok_iff.1 plain
          cases firstEq
          cases secondEq
          obtain ⟨profiles, failures⟩ := inductionHypothesis firstDone secondDone
          exact ⟨.cons same profiles, failures⟩

end Threads

theorem ThreadProfile.SameButTimes.isFrameThread {first second : ThreadProfile}
    (same : first.SameButTimes second) : first.isFrameThread = second.isFrameThread :=
  congrArg (·.root.frame) same.full

/-- A log has one run with mitigation and without, times apart, or is refused alike. -/
theorem analyzeLog_agrees {log : EventLog}
    (mitigatedCompletes : Stop.Completes (analyzeLog log true))
    (plainCompletes : Stop.Completes (analyzeLog log false)) :
    Agree RunProfile.SameButTimes (analyzeLog log true) (analyzeLog log false) := by
  obtain ⟨⟨first, firstFailures⟩, mitigated, _⟩ := Stop.Completes.exists_ok mitigatedCompletes
  obtain ⟨⟨second, secondFailures⟩, plain, _⟩ := Stop.Completes.exists_ok plainCompletes
  obtain ⟨profiles, rfl⟩ := analyzeThreads_agree mitigated plain
  have framed : List.Forall₂ ThreadProfile.SameButTimes (first.filter (·.isFrameThread))
      (second.filter (·.isFrameThread)) :=
    List.rel_filter (fun _ _ same => by simp only [same.isFrameThread]) profiles
  have others : List.Forall₂ ThreadProfile.SameButTimes (first.filter (! ·.isFrameThread))
      (second.filter (! ·.isFrameThread)) :=
    List.rel_filter (fun _ _ same => by simp only [same.isFrameThread]) profiles
  rw [analyzeLog_of_analyzeThreads mitigated, analyzeLog_of_analyzeThreads plain]
  by_cases none : first.filter (·.isFrameThread) = []
  · rw [none, List.forall₂_nil_left_iff] at framed
    rw [if_pos none, if_pos framed]
    exact .refused RunError.noFrameThread
  · have present : second.filter (·.isFrameThread) ≠ [] := by
      intro missing
      rw [missing, List.forall₂_nil_right_iff] at framed
      exact none framed
    rw [if_neg none, if_neg present]
    exact .values ⟨rfl, List.rel_append framed others, rfl⟩

theorem analyzeLog_agrees_mixedThreads :
    ∃ mitigated plain, analyzeLog mixedThreads true = .ok mitigated ∧
      analyzeLog mixedThreads false = .ok plain ∧ mitigated.SameButTimes plain ∧
      mitigated.threads.map (·.full.root.realtime) = [93, 45, 33] ∧
      plain.threads.map (·.full.root.realtime) = [100, 50, 40] := by
  have agree := @analyzeLog_agrees mixedThreads (fun reached => nofun) (fun reached => nofun)
  generalize mitigatedEq : analyzeLog mixedThreads true = mitigatedRun at agree
  generalize plainEq : analyzeLog mixedThreads false = plainRun at agree
  cases agree with
  | refused reason => cases mitigatedEq
  | values same =>
      refine ⟨_, _, rfl, rfl, same, ?_, ?_⟩
      · cases mitigatedEq
        rfl
      · cases plainEq
        rfl

end CallProfiler
