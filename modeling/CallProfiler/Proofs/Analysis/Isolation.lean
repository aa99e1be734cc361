import CallProfiler.Proofs.Analysis
import CallProfiler.Proofs.ThreadTable

/-!
# Threads of a run

What the analysis of a log has to do with the analysis of each of its threads: a run lists every
thread once, as what its own events make of it. Other threads have no say in a profile or a
failure, only in whether there is a run at all, which takes a frame thread.
-/

namespace CallProfiler

/-- A run shows for each thread of a log what its events alone amount to. -/
structure RunProfile.Isolates (run : RunProfile) (log : EventLog) (mitigate : Bool) : Prop where
  calibration : run.calibration = log.calibration
  once : (run.threads.map (·.id) ++ run.failures.map (·.id)).Perm (log.threads.entries.map (·.1))
  profiles : ∀ profile, profile ∈ run.threads ↔ ∃ events,
    log.threads.events? profile.id = some events ∧
      analyzeThread profile.id events log.calibration mitigate = .ok profile
  failures : ∀ failure, failure ∈ run.failures ↔ ∃ events,
    log.threads.events? failure.id = some events ∧
      analyzeThread failure.id events log.calibration mitigate = refuse failure.error
  framesFirst : ∃ framed others, run.threads = framed ++ others ∧
    (∀ profile ∈ framed, profile.isFrameThread) ∧ (∀ profile ∈ others, ¬ profile.isFrameThread) ∧
    (framed.map (·.id)).Pairwise (· < ·) ∧ (others.map (·.id)).Pairwise (· < ·)
  failuresAscending : (run.failures.map (·.id)).Pairwise (· < ·)
  anchor : ∃ anchor ∈ run.threads, run.frameThread? = some anchor ∧ anchor.isFrameThread ∧
    ∀ profile ∈ run.threads, profile.isFrameThread → anchor.id ≤ profile.id

section Threads

variable {calibration : Calibration} {mitigate : Bool} {entries : List (UInt32 × List Event)}
  {profiles : List ThreadProfile} {failures : List ThreadFailure}

/-- The profile of a thread that has one. -/
def profile? (calibration : Calibration) (mitigate : Bool) (entry : UInt32 × List Event) :
    Option ThreadProfile :=
  (analyzeThread entry.1 entry.2 calibration mitigate).toOption

/-- The failure of a thread that is refused. -/
def failure? (calibration : Calibration) (mitigate : Bool) (entry : UInt32 × List Event) :
    Option ThreadFailure :=
  match analyzeThread entry.1 entry.2 calibration mitigate with
  | .error (.refused error) => some ⟨entry.1, error⟩
  | _ => none

theorem profile?_eq_some_iff {entry : UInt32 × List Event} {profile : ThreadProfile} :
    profile? calibration mitigate entry = some profile ↔
      analyzeThread entry.1 entry.2 calibration mitigate = .ok profile := by
  rw [profile?]
  cases analyzeThread entry.1 entry.2 calibration mitigate with
  | ok value => simp [Except.toOption]
  | error reason => simp [Except.toOption]

theorem failure?_eq_some_iff {entry : UInt32 × List Event} {failure : ThreadFailure} :
    failure? calibration mitigate entry = some failure ↔ failure.id = entry.1 ∧
      analyzeThread entry.1 entry.2 calibration mitigate = refuse failure.error := by
  obtain ⟨id, error⟩ := failure
  rw [failure?]
  rcases analyzeThread entry.1 entry.2 calibration mitigate with (reached | reason) | value
  · simp [refuse]
  · simp [refuse, eq_comm]
  · simp [refuse]

/-- A profile bears the id of its thread. -/
theorem id_of_analyzeThread {id : UInt32} {events : List Event} {profile : ThreadProfile}
    (done : analyzeThread id events calibration mitigate = .ok profile) : profile.id = id :=
  (stages_of_analyzeThread done).1

/-- Profiles and failures are those of the threads, in the order of the threads. -/
theorem analyzeThreads_eq_ok
    (done : analyzeThreads calibration mitigate entries = .ok (profiles, failures)) :
    profiles = entries.filterMap (profile? calibration mitigate) ∧
      failures = entries.filterMap (failure? calibration mitigate) ∧
      (profiles.map (·.id) ++ failures.map (·.id)).Perm (entries.map (·.1)) := by
  induction entries generalizing profiles failures with
  | nil =>
      cases done
      exact ⟨rfl, rfl, .nil⟩
  | cons entry rest inductionHypothesis =>
      obtain ⟨id, events⟩ := entry
      rw [analyzeThreads] at done
      rcases outcome : analyzeThread id events calibration mitigate with
        (reached | error) | profile
      · rw [outcome] at done
        cases done
      · rw [outcome] at done
        obtain ⟨⟨others, refused⟩, analysed, same⟩ := bind_eq_ok_iff.1 done
        cases same
        obtain ⟨rfl, rfl, perm⟩ := inductionHypothesis analysed
        have unprofiled : profile? calibration mitigate (id, events) = none := by
          simp [profile?, outcome, Except.toOption]
        have failed : failure? calibration mitigate (id, events) = some ⟨id, error⟩ :=
          failure?_eq_some_iff.2 ⟨rfl, outcome⟩
        refine ⟨by rw [List.filterMap_cons_none unprofiled],
          by rw [List.filterMap_cons_some failed], ?_⟩
        exact List.perm_middle.trans (perm.cons id)
      · rw [outcome] at done
        obtain ⟨⟨others, refused⟩, analysed, same⟩ := bind_eq_ok_iff.1 done
        cases same
        obtain ⟨rfl, rfl, perm⟩ := inductionHypothesis analysed
        have profiled : profile? calibration mitigate (id, events) = some profile :=
          profile?_eq_some_iff.2 outcome
        have unfailed : failure? calibration mitigate (id, events) = none := by
          simp [failure?, outcome]
        refine ⟨by rw [List.filterMap_cons_some profiled],
          by rw [List.filterMap_cons_none unfailed], ?_⟩
        rw [List.map_cons, id_of_analyzeThread outcome]
        exact perm.cons id

/-- A part of the threads, in their order, has ascending ids if all of them have. -/
theorem pairwise_ids_filterMap {Part : Type} {part? : UInt32 × List Event → Option Part}
    {id : Part → UInt32} (ids : ∀ entry part, part? entry = some part → id part = entry.1)
    (ascending : entries.Pairwise fun left right => left.1 < right.1) :
    ((entries.filterMap part?).map id).Pairwise (· < ·) := by
  rw [List.pairwise_map]
  refine ascending.filterMap part? fun left right before leftPart leftIs rightPart rightIs => ?_
  rw [ids left leftPart leftIs, ids right rightPart rightIs]
  exact before

end Threads

section Run

variable {log : EventLog} {mitigate : Bool}

/-- How a run is put together from profiles and failures. -/
theorem analyzeLog_of_analyzeThreads {profiles : List ThreadProfile}
    {failures : List ThreadFailure} (done : analyzeThreads log.calibration mitigate
      log.threads.entries = .ok (profiles, failures)) :
    analyzeLog log mitigate =
      if profiles.filter (·.isFrameThread) = [] then refuse .noFrameThread
      else .ok {
        calibration := log.calibration
        threads := profiles.filter (·.isFrameThread) ++ profiles.filter (! ·.isFrameThread)
        failures } := by
  have sorted : profiles.partition (·.isFrameThread) =
      (profiles.filter (·.isFrameThread), profiles.filter (! ·.isFrameThread)) :=
    List.partition_eq_filter_filter
  have analysed : (liftM (analyzeThreads log.calibration mitigate log.threads.entries) :
      Except (Stop RunError) _) = pure (profiles, failures) := by
    rw [done]
    rfl
  rw [analyzeLog, analysed, pure_bind]
  simp only [sorted, List.isEmpty_iff]
  rfl

/-- The first of the frame threads has the lowest id of them. -/
theorem frameThread?_append {calibration : Calibration} {framed others : List ThreadProfile}
    {failures : List ThreadFailure} (present : framed ≠ [])
    (frames : ∀ profile ∈ framed, profile.isFrameThread)
    (plain : ∀ profile ∈ others, ¬ profile.isFrameThread)
    (ascending : (framed.map (·.id)).Pairwise (· < ·)) :
    ∃ anchor ∈ framed ++ others,
      RunProfile.frameThread? ⟨calibration, framed ++ others, failures⟩ = some anchor ∧
      anchor.isFrameThread ∧
      ∀ profile ∈ framed ++ others, profile.isFrameThread → anchor.id ≤ profile.id := by
  cases framed with
  | nil => exact absurd rfl present
  | cons anchor rest =>
      have isFrame := frames anchor List.mem_cons_self
      refine ⟨anchor, List.mem_cons_self, by simp [RunProfile.frameThread?, isFrame], isFrame, ?_⟩
      intro profile member framing
      rcases List.mem_append.1 member with among | among
      · rcases List.mem_cons.1 among with rfl | later
        · exact UInt32.le_refl _
        · exact UInt32.le_of_lt
            ((List.pairwise_cons.1 ascending).1 _ (List.mem_map_of_mem later))
      · exact absurd framing (plain profile among)

variable {profiles : List ThreadProfile} {failures : List ThreadFailure}

/-- Profiles are what the events of a thread alone give. -/
theorem mem_profiles_iff (done : analyzeThreads log.calibration mitigate log.threads.entries =
    .ok (profiles, failures)) (profile : ThreadProfile) :
    profile ∈ profiles ↔ ∃ events, log.threads.events? profile.id = some events ∧
      analyzeThread profile.id events log.calibration mitigate = .ok profile := by
  rw [(analyzeThreads_eq_ok done).1, List.mem_filterMap]
  constructor
  · rintro ⟨⟨id, events⟩, member, isProfile⟩
    have analysed := profile?_eq_some_iff.1 isProfile
    rw [id_of_analyzeThread analysed]
    exact ⟨events, ThreadTable.events?_eq_some_iff.2 member, analysed⟩
  · rintro ⟨events, held, analysed⟩
    exact ⟨_, ThreadTable.events?_eq_some_iff.1 held, profile?_eq_some_iff.2 analysed⟩

/-- Failures are what the events of a thread alone are refused for. -/
theorem mem_failures_iff (done : analyzeThreads log.calibration mitigate log.threads.entries =
    .ok (profiles, failures)) (failure : ThreadFailure) :
    failure ∈ failures ↔ ∃ events, log.threads.events? failure.id = some events ∧
      analyzeThread failure.id events log.calibration mitigate = refuse failure.error := by
  rw [(analyzeThreads_eq_ok done).2.1, List.mem_filterMap]
  constructor
  · rintro ⟨⟨id, events⟩, member, isFailure⟩
    obtain ⟨same, refused⟩ := failure?_eq_some_iff.1 isFailure
    rw [same]
    exact ⟨events, ThreadTable.events?_eq_some_iff.2 member, refused⟩
  · rintro ⟨events, held, refused⟩
    exact ⟨_, ThreadTable.events?_eq_some_iff.1 held, failure?_eq_some_iff.2 ⟨rfl, refused⟩⟩

/-- Where there is a frame thread the run is put together from all threads. -/
theorem isolates_of_analyzeThreads (done : analyzeThreads log.calibration mitigate
    log.threads.entries = .ok (profiles, failures))
    (present : profiles.filter (·.isFrameThread) ≠ []) :
    RunProfile.Isolates ⟨log.calibration,
      profiles.filter (·.isFrameThread) ++ profiles.filter (! ·.isFrameThread), failures⟩
      log mitigate := by
  obtain ⟨profilesAre, failuresAre, once⟩ := analyzeThreads_eq_ok done
  have ascending : (profiles.map (·.id)).Pairwise (· < ·) := by
    rw [profilesAre]
    exact pairwise_ids_filterMap
      (fun _ _ isProfile => id_of_analyzeThread (profile?_eq_some_iff.1 isProfile))
      log.threads.ascending
  have ascendingPart (test : ThreadProfile → Bool) :
      ((profiles.filter test).map (·.id)).Pairwise (· < ·) :=
    ascending.sublist (List.filter_sublist.map _)
  have frames : ∀ profile ∈ profiles.filter (·.isFrameThread), profile.isFrameThread :=
    fun profile member => (List.mem_filter.1 member).2
  have plain : ∀ profile ∈ profiles.filter (! ·.isFrameThread), ¬ profile.isFrameThread :=
    fun profile member => by simpa using (List.mem_filter.1 member).2
  have perm : (profiles.filter (·.isFrameThread) ++
      profiles.filter (! ·.isFrameThread)).Perm profiles :=
    List.filter_append_perm _ _
  constructor
  case calibration => rfl
  case once => exact ((perm.map _).append_right _).trans once
  case profiles => exact fun profile => perm.mem_iff.trans (mem_profiles_iff done profile)
  case failures => exact mem_failures_iff done
  case framesFirst => exact ⟨_, _, rfl, frames, plain, ascendingPart _, ascendingPart _⟩
  case failuresAscending =>
    show (failures.map (·.id)).Pairwise (· < ·)
    rw [failuresAre]
    exact pairwise_ids_filterMap (fun _ _ isFailure => (failure?_eq_some_iff.1 isFailure).1)
      log.threads.ascending
  case anchor => exact frameThread?_append present frames plain (ascendingPart _)

/-- Each thread of a log is analysed on its own. A log is refused just if none of the threads
that have a profile is a frame thread. -/
theorem analyzeLog_isolates (completes : Stop.Completes (analyzeLog log mitigate)) :
    (analyzeLog log mitigate = refuse .noFrameThread ↔
      ∀ id events profile, log.threads.events? id = some events →
        analyzeThread id events log.calibration mitigate = .ok profile →
        ¬ profile.isFrameThread) ∧
      (analyzeLog log mitigate ≠ refuse .noFrameThread →
        ∃ run, analyzeLog log mitigate = .ok run ∧ run.Isolates log mitigate) := by
  obtain ⟨⟨profiles, failures⟩, done, _⟩ := Stop.Completes.exists_ok completes
  rw [analyzeLog_of_analyzeThreads done]
  constructor
  · rw [ite_eq_left_iff]
    constructor
    · intro refused id events profile held analysed framing
      have member : profile ∈ profiles := (mem_profiles_iff done profile).2 <| by
        rw [id_of_analyzeThread analysed]
        exact ⟨events, held, analysed⟩
      cases refused fun none => List.filter_eq_nil_iff.1 none profile member framing
    · intro unframed present
      refine absurd (List.filter_eq_nil_iff.2 fun profile member framing => ?_) present
      obtain ⟨events, held, analysed⟩ := (mem_profiles_iff done profile).1 member
      exact unframed _ events profile held analysed framing
  · intro accepted
    have present : profiles.filter (·.isFrameThread) ≠ [] := fun none => accepted (if_pos none)
    rw [if_neg present]
    exact ⟨_, rfl, isolates_of_analyzeThreads done present⟩

end Run

/-- A thread of recursive calls, one that is refused, and two that make frames. -/
def mixedThreads : EventLog where
  calibration := ⟨10, 50, 20⟩
  threads := .ofList [
    (9, [⟨"frame", 0, true, false, 0, 50, 0⟩]),
    (1, [⟨"walk", 0, false, false, 0, 40, 9⟩, ⟨"walk", 1, false, false, 10, 30, 4⟩]),
    (2, [⟨"lost", 3, false, false, 0, 10, 0⟩]),
    (5, [⟨"frame", 0, true, false, 0, 100, 0⟩, ⟨"draw", 1, false, false, 10, 60, 0⟩])]

theorem analyzeLog_isolates_mixedThreads :
    ∃ run, analyzeLog mixedThreads true = .ok run ∧ run.threads.map (·.id) = [5, 9, 1] ∧
      run.failures.map (·.id) = [2] ∧ run.Isolates mixedThreads true := by
  have completes : Stop.Completes (analyzeLog mixedThreads true) := fun reached => nofun
  obtain ⟨run, done, isolates⟩ := (analyzeLog_isolates completes).2 nofun
  refine ⟨run, done, ?_, ?_, isolates⟩
  · cases done
    rfl
  · cases done
    rfl

end CallProfiler
