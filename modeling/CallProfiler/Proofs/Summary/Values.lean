import CallProfiler.Proofs.Json.RoundTrip
import CallProfiler.Summary

/-!
# Values of summaries

A summary is read back from its JSON text, but for the digits of the rates, if its numbers fit
the widths that a reader allows (`exists_read?_write`). Each record is read back by the names of
its fields, each list item by item; a list of failures that is empty is left out, and a list that
is left out is read as an empty one.
-/

namespace CallProfiler

open Json

/-! ## What fits -/

/-- Each number of an entry fits its width. -/
structure FunctionStat.Fits (stat : FunctionStat) : Prop where
  minLevel : Width.fitsSigned 32 stat.minLevel = true
  realtime : stat.realtime < Width.bound 64
  cpu : stat.cpu < Width.bound 64
  childrenRealtime : stat.childrenRealtime < Width.bound 64
  count : stat.count < Width.bound 64
  recursions : stat.recursions < Width.bound 32

/-- Each number of a thread's summary fits its width, and its rate is a number that can be read. -/
structure ThreadSummary.Fits (thread : ThreadSummary) : Prop where
  id : thread.id < Width.bound 32
  frames : thread.frames < Width.bound 64
  frameTime : thread.frameTime < Width.bound 64
  fps : Decimal.AtMost 96 thread.fps.toModel.unpack
  events : thread.events < Width.bound 64
  functions : ∀ stat ∈ thread.functions, stat.Fits

/-- Each number of a summary fits its width. -/
structure Summary.Fits (summary : Summary) : Prop where
  threads : ∀ thread ∈ summary.threads, thread.Fits
  failures : ∀ failure ∈ summary.failures, failure.id < Width.bound 32

/-- A thread's summary with no rate. -/
def ThreadSummary.withoutRate (thread : ThreadSummary) : ThreadSummary := { thread with fps := 0.0 }

/-- A summary with no rates. -/
def Summary.withoutRates (summary : Summary) : Summary :=
  { summary with threads := summary.threads.map ThreadSummary.withoutRate }

/-! ## Reading back -/

namespace Json.Value

/-- The items of an array are accepted one by one. -/
theorem exists_list? {α β γ : Type} {item? : Value → Option α} {write : β → Value}
    {seen : α → γ} {wanted : β → γ} {values : List β}
    (each : ∀ value ∈ values, ∃ item, item? (write value) = some item ∧ seen item = wanted value) :
    ∃ items, (Value.array (values.map write)).list? item? = some items ∧
      items.map seen = values.map wanted := by
  induction values with
  | nil => exact ⟨[], rfl, rfl⟩
  | cons value later inductionHypothesis =>
      obtain ⟨head, tail⟩ := List.forall_mem_cons.1 each
      obtain ⟨item, accepted, same⟩ := head
      obtain ⟨items, others, sameOthers⟩ := inductionHypothesis tail
      rw [list?] at others
      refine ⟨item :: items, ?_, ?_⟩
      · rw [list?, List.map_cons, List.mapM_cons, accepted, others]
        rfl
      · rw [List.map_cons, List.map_cons, same, sameOthers]

theorem list?_map {α : Type} {item? : Value → Option α} {write : α → Value} {values : List α}
    (each : ∀ value ∈ values, item? (write value) = some value) :
    (Value.array (values.map write)).list? item? = some values := by
  obtain ⟨items, accepted, same⟩ := @exists_list? α α α item? write id id values
    fun value member => ⟨value, each value member, rfl⟩
  rw [List.map_id, List.map_id] at same
  rw [accepted, same]

end Json.Value

namespace Summary

/-- The fields of a record are had back by their names. -/
theorem fields?_record {fields : List (String × Value)} (distinct : (fields.map Prod.fst).Nodup)
    (names : List String) :
    (record fields).fields? names = some (names.map fun name => fields.lookup name) := by
  rw [record, Value.fields?, List.mapM_map]
  change (fields.mapM (fun field => pure (id field)) >>= _) = _
  rw [List.mapM_pure, List.map_id]
  exact if_pos (distinct.filter _)

theorem calibrationOf?_calibrationValue (calibration : Calibration) :
    calibrationOf? (calibrationValue calibration) = some calibration := by
  have samples := @Value.unsigned?_ofNat 32 _ calibration.samples.toNat_lt
  have selfTime := @Value.unsigned?_ofNat 64 _ calibration.selfTime.toNat_lt
  have childrenTime := @Value.unsigned?_ofNat 64 _ calibration.childrenTime.toNat_lt
  rw [calibrationOf?, calibrationValue, fields?_record (by simp)]
  simp only [List.map_cons, List.map_nil, List.lookup, BEq.rfl, String.reduceBEq]
  simp only [↓Option.bind_eq_bind, ↓Option.bind_some, Option.pure_def, samples, selfTime,
    childrenTime, UInt32.ofNat_toNat, UInt64.ofNat_toNat]

theorem statOf?_statValue {stat : FunctionStat} (fits : stat.Fits) :
    statOf? (statValue stat) = some stat := by
  have minLevel := Value.signed?_ofInt fits.minLevel
  have realtime := Value.unsigned?_ofNat fits.realtime
  have cpu := Value.unsigned?_ofNat fits.cpu
  have childrenRealtime := Value.unsigned?_ofNat fits.childrenRealtime
  have count := Value.unsigned?_ofNat fits.count
  have recursions := Value.unsigned?_ofNat fits.recursions
  rw [statOf?, statValue, fields?_record (by simp)]
  simp only [List.map_cons, List.map_nil, List.lookup, BEq.rfl, String.reduceBEq]
  -- From the outside in, so that no field is looked at before those that it comes after.
  simp only [↓Option.bind_eq_bind, ↓Option.bind_some, Option.pure_def, Value.string?, Value.bool?,
    minLevel, realtime, cpu, childrenRealtime, count, recursions]

theorem failureOf?_failureValue {failure : FailureSummary} (fits : failure.id < Width.bound 32) :
    failureOf? (failureValue failure) = some failure := by
  have id := Value.unsigned?_ofNat fits
  rw [failureOf?, failureValue, fields?_record (by simp)]
  simp only [List.map_cons, List.map_nil, List.lookup, BEq.rfl, String.reduceBEq]
  simp only [↓Option.bind_eq_bind, ↓Option.bind_some, Option.pure_def, Value.string?, id]

/-- A thread is had back, but for the digits of its rate. -/
theorem exists_threadOf?_threadValue {thread : ThreadSummary} (fits : thread.Fits) :
    ∃ loaded, threadOf? (threadValue thread) = some loaded ∧
      loaded.withoutRate = thread.withoutRate := by
  obtain ⟨number, written, _, rate, double⟩ := Value.exists_ofDouble fits.fps
  have id := Value.unsigned?_ofNat fits.id
  have frames := Value.unsigned?_ofNat fits.frames
  have frameTime := Value.unsigned?_ofNat fits.frameTime
  have events := Value.unsigned?_ofNat fits.events
  have functions := Value.list?_map fun stat member =>
    statOf?_statValue (fits.functions stat member)
  rw [threadOf?, threadValue, fields?_record (by simp), written]
  refine ⟨{ thread with fps := rate }, ?_, rfl⟩
  simp only [List.map_cons, List.map_nil, List.lookup, BEq.rfl, String.reduceBEq]
  simp only [↓Option.bind_eq_bind, ↓Option.bind_some, Option.pure_def, Value.bool?, Value.double?,
    id, frames, frameTime, double, events, functions]

/-- A summary is had back from its value, but for the digits of rates. -/
theorem exists_ofValue?_toValue {summary : Summary} (fits : summary.Fits) :
    ∃ loaded, ofValue? summary.toValue = some loaded ∧
      loaded.withoutRates = summary.withoutRates := by
  obtain ⟨threads, accepted, same⟩ := Value.exists_list? fun thread member =>
    exists_threadOf?_threadValue (fits.threads thread member)
  have failures := Value.list?_map fun failure member =>
    failureOf?_failureValue (fits.failures failure member)
  have calibration := calibrationOf?_calibrationValue summary.calibration
  refine ⟨{ summary with threads }, ?_, ?_⟩
  · rw [ofValue?, toValue]
    split
    · rename_i empty
      rw [List.append_nil, fields?_record (by simp)]
      simp only [List.map_cons, List.map_nil, List.lookup, BEq.rfl, String.reduceBEq]
      simp only [↓Option.bind_eq_bind, ↓Option.bind_some, Option.pure_def, Value.string?,
        Value.bool?, calibration, accepted, List.isEmpty_iff.1 empty]
    · simp only [List.cons_append, List.nil_append]
      rw [fields?_record (by simp)]
      simp only [List.map_cons, List.map_nil, List.lookup, BEq.rfl, String.reduceBEq]
      simp only [↓Option.bind_eq_bind, ↓Option.bind_some, Option.pure_def, Value.string?,
        Value.bool?, calibration, accepted, failures]
  · simp only [withoutRates, same]

/-! ## Texts -/

theorem wellFormed_record {fields : List (String × Value)}
    (all : ∀ field ∈ fields, field.2.WellFormed) : (record fields).WellFormed :=
  .object (List.forall_mem_map.2 all)

theorem wellFormed_calibrationValue (calibration : Calibration) :
    (calibrationValue calibration).WellFormed := by
  refine wellFormed_record ?_
  simp only [List.forall_mem_cons]
  exact ⟨.ofNat _, .ofNat _, .ofNat _, nofun⟩

theorem wellFormed_statValue (stat : FunctionStat) : (statValue stat).WellFormed := by
  refine wellFormed_record ?_
  simp only [List.forall_mem_cons]
  exact ⟨.string _, .ofInt _, .ofNat _, .ofNat _, .ofNat _, .ofNat _, .ofNat _, .bool _, nofun⟩

theorem wellFormed_failureValue (failure : FailureSummary) :
    (failureValue failure).WellFormed := by
  refine wellFormed_record ?_
  simp only [List.forall_mem_cons]
  exact ⟨.ofNat _, .string _, nofun⟩

theorem wellFormed_threadValue {thread : ThreadSummary} (fits : thread.Fits) :
    (threadValue thread).WellFormed := by
  obtain ⟨number, written, rate, _⟩ := Value.exists_ofDouble fits.fps
  have functions : (Value.array (thread.functions.map statValue)).WellFormed :=
    .array (List.forall_mem_map.2 fun stat _ => wellFormed_statValue stat)
  refine wellFormed_record ?_
  simp only [List.forall_mem_cons, written]
  exact ⟨.ofNat _, .bool _, .ofNat _, .ofNat _, .number rate, .ofNat _, functions, nofun⟩

theorem wellFormed_toValue {summary : Summary} (fits : summary.Fits) :
    summary.toValue.WellFormed := by
  have threads : (Value.array (summary.threads.map threadValue)).WellFormed :=
    .array (List.forall_mem_map.2 fun thread member =>
      wellFormed_threadValue (fits.threads thread member))
  have failures : (Value.array (summary.failures.map failureValue)).WellFormed :=
    .array (List.forall_mem_map.2 fun failure _ => wellFormed_failureValue failure)
  have calibration := wellFormed_calibrationValue summary.calibration
  refine wellFormed_record (List.forall_mem_append.2 ⟨?_, ?_⟩)
  · simp only [List.forall_mem_cons]
    exact ⟨.string _, .string _, calibration, .bool _, threads, nofun⟩
  · split
    · nofun
    · exact List.forall_mem_singleton.2 failures

/-- A summary is read back from its text, but for the digits of rates. -/
theorem exists_read?_write {summary : Summary} (fits : summary.Fits) :
    ∃ loaded, read? summary.write.toList = some loaded ∧
      loaded.withoutRates = summary.withoutRates := by
  rw [write, read?, Json.read?_pretty (wellFormed_toValue fits)]
  exact exists_ofValue?_toValue fits

end Summary

end CallProfiler
