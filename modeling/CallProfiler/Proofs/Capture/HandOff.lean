import CallProfiler.CallTree.Build
import CallProfiler.Proofs.CallTree.Refusals
import CallProfiler.Proofs.Capture.Session

/-!
# What a hand-off is good for

A flush drops the intervals that are still open and hands off the others at their own levels.
`multipleFrameEntryPoints_of_flush` says that call trees can be built from that as long as no
completed interval lies in one that was dropped. Where one does, its level has lost what it
counts from, and the hand-off is refused as broken.
-/

namespace CallProfiler.Capture

/-- An interval was opened right inside another: one level below it, and everything recorded
between the two lies as deep as the inner one or deeper. -/
def Encloses (records : List Record) (outer inner : Record) : Prop :=
  ∃ before between after, records = before ++ outer :: between ++ inner :: after ∧
    outer.level + 1 = inner.level ∧ ∀ record ∈ between, inner.level ≤ record.level

/-- The levels of intervals, in the order in which they were opened. -/
def levels (records : List Record) : List Int := records.map (·.level)

theorem levels_concat (earlier : List Record) (last : Record) :
    levels (earlier ++ [last]) = levels earlier ++ [last.level] := by
  simp [levels]

/-- Every interval around a completed one is completed too. -/
def Uncut (records : List Record) : Prop :=
  ∀ outer inner, Encloses records outer inner → inner.complete = true → outer.complete = true

/-! ## Levels that climb -/

/-- The last of some levels is no lower than all of them. -/
theorem le_getLast {bound before : Int} {levels : List Int} (start : bound ≤ before)
    (each : ∀ level ∈ levels, bound ≤ level) : bound ≤ levels.getLast?.getD before := by
  cases isLast : levels.getLast? with
  | none => exact start
  | some last => exact each last (List.mem_of_getLast? isLast)

/-- Where levels climb to one that is not outermost, there is an interval right around it. -/
theorem exists_around {records : List Record} {level : Int}
    (climbs : Climbs (-1) (levels records ++ [level])) (inner : 0 < level) :
    ∃ before outer between, records = before ++ outer :: between ∧ outer.level + 1 = level ∧
      ∀ record ∈ between, level ≤ record.level := by
  induction records using List.reverseRecOn with
  | nil =>
      obtain ⟨_, _, bound⟩ := climbs_concat.1 climbs
      have outermost : level ≤ -1 + 1 := bound
      omega
  | append_singleton earlier last inductionHypothesis =>
      rw [levels_concat] at climbs
      obtain ⟨climbsAll, nonnegative, bound⟩ := climbs_concat.1 climbs
      obtain ⟨climbsEarlier, _, boundLast⟩ := climbs_concat.1 climbsAll
      rw [List.getLast?_concat, Option.getD_some] at bound
      by_cases right : last.level + 1 = level
      · exact ⟨earlier, last, [], rfl, right, by simp⟩
      · have shallow : level ≤ last.level := by omega
        obtain ⟨before, outer, between, rfl, next, deep⟩ :=
          inductionHypothesis (climbs_concat.2 ⟨climbsEarlier, nonnegative, by omega⟩)
        refine ⟨before, outer, between ++ [last], by simp, next, fun record member => ?_⟩
        rcases List.mem_append.1 member with earlier | isLast
        · exact deep record earlier
        · rw [List.mem_singleton.1 isLast]
          exact shallow

/-- What is kept of an interval and of what was opened inside it ends no higher. -/
theorem le_getLast_filter {before between : List Record} {outer : Record}
    (complete : outer.complete = true)
    (deep : ∀ record ∈ between, outer.level ≤ record.level) :
    outer.level ≤ (levels ((before ++ outer :: between).filter (·.complete))).getLast?.getD (-1) := by
  have ending : levels ((before ++ outer :: between).filter (·.complete)) =
      levels (before.filter (·.complete)) ++
        outer.level :: levels (between.filter (·.complete)) := by
    simp [levels, complete]
  rw [ending, List.getLast?_append_cons, List.getLast?_cons, Option.getD_some]
  refine le_getLast (Int.le_refl _) fun other member => ?_
  obtain ⟨record, inside, rfl⟩ := List.mem_map.1 member
  exact deep record (List.mem_of_mem_filter inside)

/-- Dropping the intervals that are still open cuts nothing off. -/
theorem Uncut.climbs {records : List Record} (uncut : Uncut records)
    (climbs : Climbs (-1) (levels records)) :
    Climbs (-1) (levels (records.filter (·.complete))) := by
  induction records using List.reverseRecOn with
  | nil => exact climbs
  | append_singleton earlier last inductionHypothesis =>
      rw [levels_concat] at climbs
      obtain ⟨climbsEarlier, nonnegative, _⟩ := climbs_concat.1 climbs
      have uncutEarlier : Uncut earlier := by
        rintro outer inner ⟨before, between, after, rfl, level, deep⟩
        exact uncut outer inner ⟨before, between, after ++ [last], by simp, level, deep⟩
      have kept := inductionHypothesis uncutEarlier climbsEarlier
      by_cases complete : last.complete = true
      · rw [List.filter_append, List.filter_singleton, complete, cond_true, levels_concat]
        refine climbs_concat.2 ⟨kept, nonnegative, ?_⟩
        by_cases outermost : 0 < last.level
        · obtain ⟨before, outer, between, rfl, level, deep⟩ := exists_around climbs outermost
          have outerComplete : outer.complete = true :=
            uncut outer last ⟨before, between, [], by simp, level, deep⟩ complete
          have bound := @le_getLast_filter before between outer outerComplete
            fun record member => by
              have below := deep record member
              omega
          omega
        · have bound : -1 ≤ (levels (earlier.filter (·.complete))).getLast?.getD (-1) :=
            le_getLast (Int.le_refl _) fun level member => by
              have := kept.nonnegative level member
              omega
          omega
      · simpa [levels, complete] using kept

/-! ## Sessions -/

/-- What is true of a recorder that found no violation, whatever it was asked to close. -/
structure Recorder.Orderly (recorder : Recorder) : Prop where
  /-- An interval that was opened now would follow the others in good order. -/
  climbs : Climbs (-1) (levels recorder.records ++ [recorder.depth])
  depthFits : Width.fitsSigned 32 recorder.depth = true
  levelsFit : ∀ record ∈ recorder.records, Width.fitsSigned 32 record.level = true
  clock : ∀ record ∈ recorder.records, record.processClock = recorder.processClock

namespace Recorder

variable {recorder next : Recorder}

theorem orderly_new (processClock : Bool) : (new processClock).Orderly where
  climbs := by
    rw [records_new]
    exact climbs_concat.2 ⟨.singleton _, Int.le_refl _, Int.le_refl _⟩
  depthFits := rfl
  levelsFit := by simp
  clock := by simp

theorem Orderly.opens (orderly : recorder.Orderly) {name : String} {frame : Bool} {now : Reading}
    {outcome : Except Fault Handle}
    (opens : Opens recorder (recorder.opening name frame now) next outcome)
    (clock : next.processClock = recorder.processClock) : next.Orderly := by
  obtain ⟨climbs, depthFits, levelsFit, sameClock⟩ := orderly
  have nonnegative := (climbs_concat.1 climbs).2.1
  -- What follows the interval that is opened now may be inside it or beside it.
  have recorded (records : next.records = recorder.records ++ [recorder.opening name frame now])
      (fits : Width.fitsSigned 32 next.depth = true) (atLeast : 0 ≤ next.depth)
      (atMost : next.depth ≤ recorder.depth + 1) : next.Orderly := by
    constructor
    case climbs =>
      rw [records, levels_concat]
      refine climbs_concat.2 ⟨climbs, atLeast, ?_⟩
      rw [List.getLast?_concat]
      exact atMost
    case depthFits => exact fits
    case levelsFit =>
      rw [records]
      simpa [or_imp, forall_and, opening] using ⟨levelsFit, depthFits⟩
    case clock =>
      rw [records, clock]
      simpa [or_imp, forall_and, opening] using sameClock
  cases opens with
  | opened records depth fits _ => exact recorded records fits (by omega) (by omega)
  | failed _ records depth _ =>
      rcases records with same | one
      · exact ⟨by rwa [same, depth], by rwa [depth], by rwa [same], by rwa [same, clock]⟩
      · exact recorded one (by rwa [depth]) (by omega) (by omega)

theorem Orderly.closes (orderly : recorder.Orderly) {handle : Handle} {now : Reading}
    {outcome : Except (Stop CaptureError) Unit} (closes : Closes recorder handle now next outcome)
    (clock : next.processClock = recorder.processClock) (healthy : next.poisoned = false) :
    next.Orderly := by
  cases closes with
  | unknown => exact orderly
  | uncounted => exact orderly
  | violated _ _ _ _ _ poisoned => rw [poisoned] at healthy; cases healthy
  | @closed _ record found innermost records depth fits _ =>
      obtain ⟨climbs, _, levelsFit, sameClock⟩ := orderly
      obtain ⟨climbsRecords, _, bound⟩ := climbs_concat.1 climbs
      have inside : record.level ∈ levels recorder.records :=
        List.mem_map_of_mem (List.mem_of_getElem? found)
      have nonnegative := climbsRecords.nonnegative _ inside
      have sameLevels : levels next.records = levels recorder.records := by
        rw [records]
        exact map_close (fun _ => rfl) _ _
      constructor
      case climbs =>
        rw [sameLevels]
        exact climbs_concat.2 ⟨climbsRecords, by omega, by omega⟩
      case depthFits => exact fits
      case levelsFit =>
        rw [records]
        exact forall_close (fun _ fits => fits) levelsFit handle.slot
      case clock =>
        rw [records, clock]
        exact forall_close (fun _ same => same) sameClock handle.slot

/-- An orderly recorder hands off events that keep the levels of their records. -/
theorem Orderly.map_level_toEvent (orderly : recorder.Orderly) :
    ((recorder.records.filter (·.complete)).map Record.toEvent).map (·.level.toInt) =
      levels (recorder.records.filter (·.complete)) := by
  rw [List.map_map, levels]
  refine List.map_congr_left fun record member => ?_
  exact Width.toInt_ofInt32 (orderly.levelsFit record (List.mem_of_mem_filter member))

end Recorder

namespace Session

/-- However a recorder is used, one without violations is orderly. -/
theorem Reached.orderly {may : Session → Handle → Prop} {processClock : Bool} {session : Session}
    (reached : Reached may processClock session) :
    session.recorder.Live ∧
      (session.recorder.poisoned = false → session.recorder.Orderly) := by
  refine @Reached.invariant _ _ _ (fun session => session.recorder.Orderly) reached ?_ ?_ ?_
  · exact Recorder.orderly_new processClock
  · intro session name frame now next outcome orderly opens clock
    rw [afterPush_recorder]
    exact orderly.opens opens clock
  · intro session handle now next outcome orderly _ closes healthy clock
    rw [afterPop_recorder]
    exact orderly.closes closes clock healthy

/-- Whatever was pushed and popped, a hand-off from which no completed interval was cut off is
no broken list: nothing can be wrong with it but the number of calls on a frame thread. -/
theorem multipleFrameEntryPoints_of_flush {may : Session → Handle → Prop} {processClock : Bool}
    {session : Session} {events : List Event} {reason : AnalysisError}
    (reached : Reached may processClock session)
    (handedOff : session.recorder.flush.2 = some events)
    (uncut : Uncut session.recorder.records)
    (refused : CallTree.build events = .error (.refused reason)) :
    ∃ count, reason = .multipleFrameEntryPoints count := by
  obtain ⟨live, orderlyIfHealthy⟩ := reached.orderly
  obtain ⟨healthy, rfl⟩ := Recorder.flush_eq_some live handedOff
  have orderly := orderlyIfHealthy healthy
  have accepted : OpenPath.check [] 0
      ((session.recorder.records.filter (·.complete)).map Record.toEvent) = .ok () := by
    apply OpenPath.check_eq_ok
    · rw [orderly.map_level_toEvent]
      exact uncut.climbs (climbs_concat.1 orderly.climbs).1
    · simp
    · intro event member
      obtain ⟨record, kept, rfl⟩ := List.mem_map.1 member
      exact orderly.clock record (List.mem_of_mem_filter kept)
  rcases CallTree.refused_of_build refused with failed | ⟨_, other⟩
  · rw [accepted] at failed
    cases failed
  · exact other

/-- Two calls on a frame thread, one of them with a call inside it. -/
def twoEntryPoints : Session :=
  (((((((start true).push "frame" true ⟨0, 0⟩).push "draw" false ⟨10, 10⟩).pop ⟨1⟩ ⟨20, 20⟩).pop
    ⟨0⟩ ⟨30, 30⟩).push "load" false ⟨40, 40⟩).pop ⟨2⟩ ⟨50, 50⟩)

theorem multipleFrameEntryPoints_twoEntryPoints :
    Reached IsOpen true twoEntryPoints ∧ Uncut twoEntryPoints.recorder.records ∧
      ∃ events, twoEntryPoints.recorder.flush.2 = some events ∧ events.length = 3 ∧
        CallTree.build events = .error (.refused (.multipleFrameEntryPoints 2)) ∧
        ∃ count, (.multipleFrameEntryPoints 2 : AnalysisError) = .multipleFrameEntryPoints count := by
  have reached : Reached IsOpen true twoEntryPoints :=
    .pop (.push (.pop (.pop (.push (.push .start "frame" true _) "draw" false _) (by decide) _)
      (by decide) _) "load" false _) (by decide) _
  have complete : ∀ record ∈ twoEntryPoints.recorder.records, record.complete = true := by decide
  have uncut : Uncut twoEntryPoints.recorder.records := by
    rintro outer inner ⟨before, between, after, parted, _⟩ _
    exact complete outer (by simp [parted])
  exact ⟨reached, uncut, _, rfl, rfl, rfl, multipleFrameEntryPoints_of_flush reached rfl uncut rfl⟩

/-- A finished call inside one that still runs. -/
def stillRunning : Session :=
  (((start true).push "outer" false ⟨0, 0⟩).push "inner" false ⟨10, 10⟩).pop ⟨1⟩ ⟨20, 20⟩

/-- A flush in the middle of a call hands off what no call tree can be built from. -/
theorem brokenEventList_stillRunning :
    Reached IsOpen true stillRunning ∧ stillRunning.recorder.poisoned = false ∧
      ∃ events, stillRunning.recorder.flush.2 = some events ∧
        CallTree.build events = .error (.refused (.brokenEventList 0 "inner" 1)) := by
  have reached : Reached IsOpen true stillRunning :=
    .pop (.push (.push .start "outer" false _) "inner" false _) (by decide) _
  exact ⟨reached, rfl, _, rfl, rfl⟩

end Session

end CallProfiler.Capture
