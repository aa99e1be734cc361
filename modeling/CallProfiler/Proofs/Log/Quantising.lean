import CallProfiler.Proofs.Log.Interrupted
import CallProfiler.Proofs.Log.Rewriting

/-!
# Logs in coarse ticks

A coarse log holds its times in ticks of a hundred nanoseconds. Every start and every stop is
rounded down by itself, so nothing adds up along a thread, and a rounded time falls into the tick
that it came from. `encode_written` draws the conclusion: what was read back of a log is written as
the log was. `encode_coarse` puts both together.
-/

namespace CallProfiler.Log

open CallProfiler.Text

variable {options : EncodeOptions} {table : List String} {cursor : Int} {processClock : Bool}

/-! ## Writing in ticks -/

/-- The times of coarse ticks are small enough for signed numbers, whatever they are. -/
theorem writableIn_coarse {event : Event} (isName : isWord event.name.toList = true)
    (ordered : event.start ≤ event.stop) : WritableIn (tickLength true) event where
  isName := isName
  ordered := ordered
  inTime := by
    have inWidth : event.stop.toNat < Width.bound 64 := event.stop.toNat_lt
    have half : Width.bound 64 = 2 * Width.bound 63 := Width.bound_succ 63
    show event.stop.toNat / 100 < Width.bound 63
    omega

theorem Encoding.outcome_andThen {first second : Encoding} (complete : first.outcome = .ok ()) :
    (first.andThen second).outcome = second.outcome := by
  rw [andThen, complete]

theorem encodeEvents_complete {events : List Event}
    (writable : ∀ event ∈ events, WritableIn (tickLength options.coarse) event) {cursor : Nat}
    (fits : cursor < Width.bound 63) :
    (encodeEvents options table cursor events).outcome = .ok () := by
  induction events generalizing cursor with
  | nil => rfl
  | cons event rest inductionHypothesis =>
      obtain ⟨here, others⟩ := List.forall_mem_cons.1 writable
      rw [encodeEvents, eventLine_eq_ok options table fits here, ticks_of_lt here.startInTime]
      exact inductionHypothesis others here.startInTime

theorem encodeSections_complete {entries : List (UInt32 × List Event)}
    (writable : ∀ event ∈ entries.flatMap (·.2), WritableIn (tickLength options.coarse) event) :
    (encodeSections options table entries).outcome = .ok () := by
  induction entries with
  | nil => rfl
  | cons entry rest inductionHypothesis =>
      obtain ⟨id, events⟩ := entry
      rw [List.flatMap_cons, List.forall_mem_append] at writable
      have here : (encodeSection options table id events).outcome = .ok () := by
        cases events with
        | nil => rfl
        | cons first others =>
            have startInTime := (writable.1 first List.mem_cons_self).startInTime
            rw [encodeSection, ticks_of_lt startInTime, Encoding.outcome_andThen rfl]
            exact encodeEvents_complete writable.1 startInTime
      rw [encodeSections, Encoding.outcome_andThen here]
      exact inductionHypothesis writable.2

/-- A log whose events can be written is written to its end. -/
theorem exists_toText {log : EventLog}
    (writable : ∀ event ∈ log.threads.allEvents, WritableIn (tickLength options.coarse) event) :
    ∃ text, (encode options log).toText = .ok text := by
  have named : ∀ event ∈ log.threads.allEvents, isWord event.name.toList = true :=
    fun event member => (writable event member).isName
  have complete : (encode options log).outcome = .ok () := by
    rw [encode, Encoding.outcome_andThen]
    · exact encodeSections_complete writable
    · rw [Encoding.outcome_andThen rfl]
      exact encodeNames_complete options.names named
  exact ⟨_, by rw [Encoding.toText, complete]; rfl⟩

/-! ## Writing what was read back -/

theorem toNat_roundedDown (tick : Nat) (time : UInt64) :
    (roundedDown tick time).toNat = time.toNat / tick * tick :=
  UInt64.toNat_ofNat_of_lt' (div_mul_lt time tick)

/-- A time falls into the same tick when it is rounded down. -/
theorem ticks_roundedDown (tick : Nat) (time : UInt64) :
    ticks tick (roundedDown tick time) = ticks tick time := by
  have whole : time.toNat / tick * tick / tick = time.toNat / tick := by
    rcases Nat.eq_zero_or_pos tick with rfl | positive
    · rw [Nat.div_zero, Nat.div_zero]
    · exact Nat.mul_div_cancel _ positive
  rw [ticks, ticks, toNat_roundedDown, whole]

theorem ticks_start_written (event : Event) :
    ticks (tickLength options.coarse) (written options processClock event).start =
      ticks (tickLength options.coarse) event.start :=
  ticks_roundedDown (tickLength options.coarse) event.start

theorem ticks_stop_written (event : Event) :
    ticks (tickLength options.coarse) (written options processClock event).stop =
      ticks (tickLength options.coarse) event.stop :=
  ticks_roundedDown (tickLength options.coarse) event.stop

theorem eventLine_written (event : Event) :
    eventLine options table cursor (written options processClock event) =
      eventLine options table cursor event := by
  rw [eventLine, eventLine, ticks_start_written, ticks_stop_written]
  simp only [written, restored, quantised]
  cases options.cpu <;> rfl

theorem encodeEvents_written (events : List Event) :
    encodeEvents options table cursor (events.map (written options processClock)) =
      encodeEvents options table cursor events := by
  induction events generalizing cursor with
  | nil => rfl
  | cons event rest inductionHypothesis =>
      rw [List.map_cons, encodeEvents, encodeEvents, eventLine_written, ticks_start_written,
        inductionHypothesis]

theorem encodeSection_written (id : UInt32) (events : List Event) :
    encodeSection options table id (events.map (written options processClock)) =
      encodeSection options table id events := by
  cases events with
  | nil => rfl
  | cons first rest =>
      have same := @encodeEvents_written options table
        (ticks (tickLength options.coarse) first.start) processClock (first :: rest)
      rw [List.map_cons] at same
      rw [List.map_cons, encodeSection, encodeSection, ticks_start_written, same]

/-- Threads without events leave no trace in a text. -/
theorem encodeSections_written (entries : List (UInt32 × List Event)) :
    encodeSections options table ((entries.filter isOccupied).map fun entry =>
        (entry.1, entry.2.map (written options processClock))) =
      encodeSections options table entries := by
  induction entries with
  | nil => rfl
  | cons entry rest inductionHypothesis =>
      obtain ⟨id, events⟩ := entry
      cases events with
      | nil => exact inductionHypothesis
      | cons first others =>
          have here := @encodeSection_written options table processClock id (first :: others)
          rw [List.filter_cons_of_pos rfl, List.map_cons, encodeSections, here, inductionHypothesis,
            encodeSections]

theorem encodeNames_written (format : NameFormat) (table : List String) (events : List Event) :
    encodeNames format table (events.map (written options processClock)) =
      encodeNames format table events := by
  induction events generalizing table with
  | nil => rfl
  | cons event rest inductionHypothesis =>
      have name : (written options processClock event).name = event.name := rfl
      rw [List.map_cons, encodeNames, encodeNames, name, inductionHypothesis, inductionHypothesis]

theorem flatMap_occupied (entries : List (UInt32 × List Event)) :
    (((entries.filter isOccupied).map fun entry =>
        (entry.1, entry.2.map (written options processClock))).flatMap (·.2)) =
      (entries.flatMap (·.2)).map (written options processClock) := by
  induction entries with
  | nil => rfl
  | cons entry rest inductionHypothesis =>
      obtain ⟨id, events⟩ := entry
      cases events with
      | nil => exact inductionHypothesis
      | cons first others =>
          rw [List.filter_cons_of_pos rfl, List.map_cons, List.flatMap_cons, List.flatMap_cons,
            List.map_append, inductionHypothesis]

theorem any_processClock_written (events : List Event) :
    (events.map (written options (events.any (·.processClock)))).any (·.processClock) =
      events.any (·.processClock) := by
  cases events with
  | nil => rfl
  | cons first rest =>
      cases clock : (first :: rest).any (·.processClock) with
      | false => simp [written, restored]
      | true => simp [written, restored]

/-- What is read back of a log is written as the log was. -/
theorem encode_written {log decoded : EventLog} (calibration : decoded.calibration = log.calibration)
    (threads : decoded.threads.entries = log.threads.occupied.map fun entry =>
      (entry.1, entry.2.map (written options (anyProcessClock log)))) :
    encode options decoded = encode options log := by
  have events : decoded.threads.allEvents =
      log.threads.allEvents.map (written options (anyProcessClock log)) := by
    rw [ThreadTable.allEvents, threads]
    exact flatMap_occupied log.threads.entries
  have clock : decoded.threads.allEvents.any (·.processClock) =
      log.threads.allEvents.any (·.processClock) := by
    rw [events]
    exact any_processClock_written log.threads.allEvents
  have header : headerLines options decoded = headerLines options log := by
    rw [headerLines, headerLines, calibration, clock]
  have sections (table : List String) : encodeSections options table decoded.threads.entries =
      encodeSections options table log.threads.entries := by
    rw [threads]
    exact encodeSections_written log.threads.entries
  rw [encode, encode, header, events, encodeNames_written]
  simp only [sections]

/-! ## Whole logs -/

/-- In coarse ticks every log of proper events is written to its end. If the ids of the table are
enough for its names, it comes back with each start and stop rounded down to a multiple of a hundred
nanoseconds, and what came back is written as the same text. -/
theorem encode_coarse (names : NameFormat) (cpu : Bool) (log : EventLog)
    (proper : Proper log.threads.allEvents) :
    ∃ text, (encode ⟨names, true, cpu⟩ log).toText = .ok text ∧
      ((names = .nameTable →
          (log.threads.allEvents.map (·.name)).eraseDups.length ≤ Width.bound 32) →
        ∃ decoded, decode (linesOfText text) = .ok decoded ∧
          decoded.calibration = log.calibration ∧
          (decoded.threads.entries = log.threads.occupied.map fun entry =>
            (entry.1, entry.2.map fun event =>
              restored cpu (anyProcessClock log) (quantised 100 event))) ∧
          (encode ⟨names, true, cpu⟩ decoded).toText = .ok text) := by
  have writable : ∀ event ∈ log.threads.allEvents, WritableIn (tickLength true) event :=
    fun event member => writableIn_coarse (proper event member).1 (proper event member).2
  obtain ⟨text, complete⟩ := @exists_toText ⟨names, true, cpu⟩ log writable
  refine ⟨text, complete, fun few => ?_⟩
  have small : (tableOf ⟨names, true, cpu⟩ log).length ≤ Width.bound 32 := by
    cases names with
    | inlineNames => exact Nat.zero_le _
    | nameTable => exact few rfl
  obtain ⟨same, decoded, again, accepted, calibration, threads⟩ :=
    @decode_written ⟨names, true, cpu⟩ log writable small
  cases complete.symm.trans again
  refine ⟨decoded, accepted, calibration, threads, ?_⟩
  rw [encode_written calibration threads]
  exact complete

/-- One thread with times between the ticks, on both clocks, and one without events. -/
def idleThread : EventLog :=
  ⟨⟨1000, 40, 60⟩, .ofList [
    (3, [⟨"load", 0, false, false, 150, 299, 7⟩, ⟨"draw", 0, true, true, 310, 420, 9⟩]),
    (5, [])]⟩

theorem encode_coarse_idleThread :
    Proper idleThread.threads.allEvents ∧
      ∃ text decoded, (encode ⟨.nameTable, true, true⟩ idleThread).toText = .ok text ∧
        decode (linesOfText text) = .ok decoded ∧
        decoded.threads.entries =
          [(3, [⟨"load", 0, false, true, 100, 200, 7⟩, ⟨"draw", 0, true, true, 300, 400, 9⟩])] ∧
        (encode ⟨.nameTable, true, true⟩ decoded).toText = .ok text := by
  have proper : Proper idleThread.threads.allEvents := by
    simp only [Proper]
    decide
  obtain ⟨text, complete, comesBack⟩ := encode_coarse .nameTable true idleThread proper
  obtain ⟨decoded, accepted, _, threads, again⟩ := comesBack fun _ => by decide
  exact ⟨proper, text, decoded, complete, accepted, threads, again⟩

/-- A thread without events does not come back, nor do clocks that differ, nor the CPU times that
are not written. -/
theorem not_sameThreads_idleThread :
    Proper idleThread.threads.allEvents ∧
      ¬ ∃ text decoded, (encode ⟨.nameTable, true, false⟩ idleThread).toText = .ok text ∧
        decode (linesOfText text) = .ok decoded ∧
        decoded.threads.entries = idleThread.threads.entries.map fun entry =>
          (entry.1, entry.2.map (quantised 100)) := by
  obtain ⟨text, decoded, complete, accepted, threads⟩ : ∃ text decoded,
      (encode ⟨.nameTable, true, false⟩ idleThread).toText = .ok text ∧
      decode (linesOfText text) = .ok decoded ∧
      decoded.threads.entries.map (·.1) = [3] := ⟨_, _, rfl, rfl, by decide⟩
  refine ⟨by simp only [Proper]; decide, ?_⟩
  rintro ⟨_, _, completeToo, acceptedToo, same⟩
  cases complete.symm.trans completeToo
  cases accepted.symm.trans acceptedToo
  rw [same] at threads
  exact absurd threads (by decide)

end CallProfiler.Log
