import CallProfiler.Capture.Registry
import CallProfiler.Proofs.Capture.HandOff
import CallProfiler.Proofs.Log.Rewriting

/-!
# Registries and their own recorders

A registry holds what recorders handed off that it made itself. `Reached.handedOff` says what
every event list in it is like; all of them have the clock of its settings, so that the log of a
registry comes back unchanged from its text, which keeps no more than one clock for all events.
`finish_finishes` lists the ways in which a shutdown ends.
-/

namespace CallProfiler.Capture

/-- A clock that runs backwards counts as standing still. -/
theorem Record.start_le_stop (record : Record) : record.toEvent.start ≤ record.toEvent.stop := by
  show record.start.wall ≤ if record.stop.wall ≤ record.start.wall then record.start.wall
    else record.stop.wall
  split
  · exact UInt64.le_refl _
  · rename_i later
    exact UInt64.le_of_lt (UInt64.not_le.1 later)

/-- What is true of the events that a recorder handed off. -/
structure HandedOff (processClock : Bool) (events : List Event) : Prop where
  occupied : events ≠ []
  forward : ∀ event ∈ events, event.start ≤ event.stop
  clock : ∀ event ∈ events, event.processClock = processClock

namespace Session

variable {may : Session → Handle → Prop} {processClock : Bool} {session : Session}

/-- A recorder keeps its clock. -/
theorem Reached.processClock_eq (reached : Reached may processClock session) :
    session.recorder.processClock = processClock := by
  induction reached with
  | start => rfl
  | push _ name frame now inductionHypothesis =>
      rw [Session.push, afterPush_recorder, Recorder.push_processClock, inductionHypothesis]
  | pop _ _ now inductionHypothesis =>
      rw [Session.pop, afterPop_recorder, Recorder.pop_processClock, inductionHypothesis]

theorem Reached.handedOff (reached : Reached may processClock session) {events : List Event}
    (flushed : session.recorder.flush.2 = some events) : HandedOff processClock events := by
  obtain ⟨live, orderlyIfHealthy⟩ := reached.orderly
  obtain ⟨healthy, records⟩ := Recorder.flush_eq_some live flushed
  have orderly := orderlyIfHealthy healthy
  constructor
  case occupied => exact Recorder.flush_ne_nil flushed
  case forward =>
    rw [records]
    exact List.forall_mem_map.2 fun record _ => record.start_le_stop
  case clock =>
    rw [records]
    exact List.forall_mem_map.2 fun record kept =>
      (orderly.clock record (List.mem_of_mem_filter kept)).trans reached.processClock_eq

end Session

namespace Registry

/-- The registries to which hand-offs of their own recorders lead, and logs being taken. -/
inductive Reached (settings : ProfilerSettings) (calibration : Calibration) : Registry → Prop where
  | new : Reached settings calibration (.new settings calibration)
  | handOff {registry : Registry} {may : Session → Handle → Prop} {session : Session}
      (reached : Reached settings calibration registry)
      (used : Session.Reached may settings.processClock session) :
      Reached settings calibration (registry.acceptHandOff session.recorder.flush.2)
  | takeLog {registry : Registry} (reached : Reached settings calibration registry) :
      Reached settings calibration registry.takeLog.1

/-- A recorder of a registry begins where a session begins. -/
example (registry : Registry) :
    (Session.start registry.settings.processClock).recorder = registry.recorder := rfl

variable {settings : ProfilerSettings} {calibration : Calibration} {registry : Registry}

theorem acceptHandOff_settings (registry : Registry) (handedOff : Option (List Event)) :
    (registry.acceptHandOff handedOff).settings = registry.settings := by
  cases handedOff with
  | none => rfl
  | some events =>
      show (registry.accept events).settings = _
      rw [accept]
      split <;> rfl

/-- What a registry holds after a hand-off was there before, or is the hand-off. -/
theorem mem_acceptHandOff {handedOff : Option (List Event)} {entry : UInt32 × List Event}
    (member : entry ∈ (registry.acceptHandOff handedOff).threads.entries) :
    entry ∈ registry.threads.entries ∨ handedOff = some entry.2 := by
  cases handedOff with
  | none => exact .inl member
  | some events =>
      replace member : entry ∈ (registry.accept events).threads.entries := member
      rw [accept] at member
      split at member
      · exact .inl member
      · rcases ThreadTable.mem_place member with rfl | older
        · exact .inr rfl
        · exact .inl older

theorem Reached.settings_eq (reached : Reached settings calibration registry) :
    registry.settings = settings := by
  induction reached with
  | new => rfl
  | handOff _ _ inductionHypothesis => rw [acceptHandOff_settings, inductionHypothesis]
  | takeLog _ inductionHypothesis => exact inductionHypothesis

/-- Every event list in a registry is one that a recorder of its own handed off. -/
theorem Reached.handedOff (reached : Reached settings calibration registry) :
    ∀ entry ∈ registry.threads.entries, HandedOff settings.processClock entry.2 := by
  induction reached with
  | new => simp [Registry.new, ThreadTable.empty]
  | handOff _ used inductionHypothesis =>
      intro entry member
      rcases mem_acceptHandOff member with older | flushed
      · exact inductionHypothesis entry older
      · exact used.handedOff flushed
  | takeLog => simp [Registry.takeLog, ThreadTable.empty]

/-! ## The log of a registry -/

/-- The one clock that a text keeps is the clock of every event. -/
theorem Reached.restored_eq (reached : Reached settings calibration registry) {event : Event}
    (member : event ∈ registry.threads.allEvents) :
    Log.restored true (Log.anyProcessClock registry.takeLog.2) event = event := by
  have clock (other : Event) (held : other ∈ registry.threads.allEvents) :
      other.processClock = settings.processClock := by
    obtain ⟨entry, inside, ofEntry⟩ := List.mem_flatMap.1 held
    exact (reached.handedOff entry inside).clock other ofEntry
  have same : Log.anyProcessClock registry.takeLog.2 = event.processClock := by
    rw [Log.anyProcessClock, clock event member]
    cases kind : settings.processClock with
    | true => exact List.any_eq_true.2 ⟨event, member, by rw [clock event member, kind]⟩
    | false =>
        refine List.any_eq_false.2 fun other held => ?_
        rw [clock other held, kind]
        exact Bool.false_ne_true
  rw [same]
  rfl

/-- The log of a registry comes back from its text as it is. -/
theorem Reached.decode_log (reached : Reached settings calibration registry)
    (named : ∀ event ∈ registry.threads.allEvents, Text.isWord event.name.toList = true)
    (inTime : Log.InTime registry.threads.allEvents)
    (few : (registry.threads.allEvents.map (·.name)).eraseDups.length ≤ Width.bound 32) :
    ∃ text, (Log.encode .standard registry.takeLog.2).toText = .ok text ∧
      Log.decode (Log.linesOfText text) = .ok registry.takeLog.2 := by
  have writable : ∀ event ∈ registry.takeLog.2.threads.allEvents, Log.Writable event := by
    intro event member
    obtain ⟨entry, inside, ofEntry⟩ := List.mem_flatMap.1 member
    exact ⟨named event member, (reached.handedOff entry inside).forward event ofEntry,
      inTime event member⟩
  obtain ⟨text, ⟨calibration, ⟨entries, ascending⟩⟩, encoded, decoded, rfl, same⟩ :=
    @Log.roundTrips_of_writable .standard rfl registry.takeLog.2 writable few
  refine ⟨text, encoded, decoded.trans ?_⟩
  have occupied : registry.takeLog.2.threads.occupied = registry.threads.entries :=
    List.filter_eq_self.2 fun entry inside => by
      simpa using (reached.handedOff entry inside).occupied
  have kept : ∀ entry ∈ registry.threads.entries,
      (entry.1, entry.2.map (Log.restored true (Log.anyProcessClock registry.takeLog.2))) =
        entry := by
    intro entry inside
    refine Prod.ext rfl ((List.map_congr_left fun event ofEntry => ?_).trans (List.map_id _))
    exact reached.restored_eq (List.mem_flatMap.2 ⟨entry, inside, ofEntry⟩)
  have unchanged : entries = registry.threads.entries := by
    rw [occupied] at same
    exact same.trans ((List.map_congr_left kept).trans (List.map_id _))
  cases unchanged
  rfl

/-! ## Shutdowns -/

/-- How a shutdown ends. It goes on to the report once the log was saved, if one was asked for. -/
inductive Finishes {World : Type} (files : FileAccess (StateM World)) (registry : Registry)
    (world : World) : (Registry × Except (Stop ShutdownError) EventLog) × World → Prop where
  | unsaved {last : World} (stop : Stop ShutdownError)
      (saving : (writeLog files registry.settings registry.takeLog.2).run world =
        (.error stop, last)) :
      Finishes files registry world ((registry.takeLog.1, .error stop), last)
  | unreported {saved last : World} (stop : Stop ShutdownError)
      (saving : (writeLog files registry.settings registry.takeLog.2).run world = (.ok (), saved))
      (reporting : (writeReport files registry.settings registry.takeLog.2).run saved =
        (.error stop, last)) :
      Finishes files registry world ((registry.takeLog.1, .error stop), last)
  | finished {saved last : World}
      (saving : (writeLog files registry.settings registry.takeLog.2).run world = (.ok (), saved))
      (reporting : (writeReport files registry.settings registry.takeLog.2).run saved =
        (.ok (), last)) :
      Finishes files registry world ((registry.takeLog.1, .ok registry.takeLog.2), last)

/-- A shutdown ends in one of these ways. -/
theorem finish_finishes {World : Type} (files : FileAccess (StateM World)) (registry : Registry)
    (world : World) : Finishes files registry world ((registry.finish files).run world) := by
  rw [finish]
  dsimp only
  rw [StateT.run_bind]
  cases saving : (writeLog files registry.takeLog.1.settings registry.takeLog.2).run world with
  | mk outcome saved =>
      cases outcome with
      | error stop => exact .unsaved stop saving
      | ok done =>
          dsimp only [bind, Id, StateT.bind, StateT.run]
          cases reporting : writeReport files registry.takeLog.1.settings registry.takeLog.2 saved with
          | mk outcome last =>
              cases outcome with
              | error stop => exact .unreported stop saving reporting
              | ok done => exact .finished saving reporting

/-- A shutdown takes the log, whatever else becomes of it, and answers with no other. -/
theorem finish_takes {World : Type} (files : FileAccess (StateM World)) (registry : Registry)
    (world : World) :
    ((registry.finish files).run world).1.1 = registry.takeLog.1 ∧
      ∀ log, ((registry.finish files).run world).1.2 = .ok log → log = registry.takeLog.2 := by
  have finishes := finish_finishes files registry world
  generalize (registry.finish files).run world = result at finishes
  cases finishes with
  | unsaved => exact ⟨rfl, by rintro _ ⟨⟩⟩
  | unreported => exact ⟨rfl, by rintro _ ⟨⟩⟩
  | finished => exact ⟨rfl, by rintro _ ⟨⟩; rfl⟩

end Registry

end CallProfiler.Capture
