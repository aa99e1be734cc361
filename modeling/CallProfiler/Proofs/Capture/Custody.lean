import CallProfiler.Files.Tree
import CallProfiler.Proofs.Capture.Delivery
import CallProfiler.Proofs.Capture.Registry
import Mathlib.Data.List.Nodup

/-!
# Custody of event lists

A process has one registry, any number of recorders that report to it, and the logs that were
taken from it. Whatever its threads do, and in whatever order, every event list that the registry
was handed is in one place: in a log that was taken, or still in the registry.
`Reached.inCustody` is the whole account, from which `Reached.keepsOnce` reads where a list is.
-/

namespace CallProfiler

/-- A table has one event list for an id. -/
theorem ThreadTable.eq_of_mem {table : ThreadTable} {id : UInt32} {events others : List Event}
    (member : (id, events) ∈ table.entries) (other : (id, others) ∈ table.entries) :
    events = others := by
  have different : (table.entries.map (·.1)).Nodup :=
    List.pairwise_map.2 (table.ascending.imp UInt32.ne_of_lt)
  exact congrArg Prod.snd (List.inj_on_of_nodup_map different member other rfl)

namespace Capture

/-- A registry with its recorders, and what has become of the lists that it was handed. -/
structure Process where
  registry : Registry
  recorders : List Recorder
  /-- The event lists that the registry was handed, the earliest first. Empty ones do not count. -/
  handedOff : List (List Event)
  /-- The logs that were taken, the earliest first. -/
  taken : List EventLog

/-- Event lists under the numbers that they come in. -/
def numbered (lists : List (List Event)) : List (UInt32 × List Event) :=
  lists.mapIdx fun index events => (.ofNat index, events)

/-- An event list is under its id in one place, and nothing else is anywhere under that id. -/
def KeptOnce (places : List ThreadTable) (id : UInt32) (events : List Event) : Prop :=
  ∃ place, (∃ table : ThreadTable, places[place]? = some table ∧ (id, events) ∈ table.entries) ∧
    ∀ (other : Nat) (table : ThreadTable) (held : List Event), places[other]? = some table →
      (id, held) ∈ table.entries → other = place ∧ held = events

/-! ## Numbers -/

theorem mem_numbered {lists : List (List Event)} {entry : UInt32 × List Event} :
    entry ∈ numbered lists ↔
      ∃ index, lists[index]? = some entry.2 ∧ entry.1 = .ofNat index := by
  rw [numbered, List.mem_iff_getElem?]
  refine exists_congr fun index => ?_
  rw [List.getElem?_mapIdx, Option.map_eq_some_iff]
  constructor
  · rintro ⟨events, found, rfl⟩
    exact ⟨found, rfl⟩
  · rintro ⟨found, number⟩
    exact ⟨entry.2, found, Prod.ext number.symm rfl⟩

theorem numbered_concat (lists : List (List Event)) (events : List Event) :
    numbered (lists ++ [events]) = numbered lists ++ [(.ofNat lists.length, events)] := by
  rw [numbered, List.mapIdx_concat, numbered]

/-- Numbers below the capacity of an id stay apart. -/
theorem ofNat_lt_ofNat {index other : Nat} (smaller : index < other)
    (few : other < Width.bound 32) : UInt32.ofNat index < UInt32.ofNat other := by
  rw [UInt32.lt_iff_toNat_lt, UInt32.toNat_ofNat_of_lt' (smaller.trans few),
    UInt32.toNat_ofNat_of_lt' few]
  exact smaller

/-- Every number comes once, in ascending order. -/
theorem numbered_ascending {lists : List (List Event)} (few : lists.length ≤ Width.bound 32) :
    (numbered lists).Pairwise fun left right => left.1 < right.1 := by
  rw [List.pairwise_iff_getElem]
  intro index other _ inside smaller
  rw [numbered, List.length_mapIdx] at inside
  simp only [numbered, List.getElem_mapIdx]
  exact ofNat_lt_ofNat smaller (inside.trans_le few)

/-- Where all places together hold every id once, what is somewhere is in one place. -/
theorem keptOnce_of_mem {places : List ThreadTable} {id : UInt32} {events : List Event}
    (ascending : (places.flatMap (·.entries)).Pairwise fun left right => left.1 < right.1)
    (member : (id, events) ∈ places.flatMap (·.entries)) : KeptOnce places id events := by
  obtain ⟨table, inside, held⟩ := List.mem_flatMap.1 member
  obtain ⟨place, found⟩ := List.mem_iff_getElem?.1 inside
  obtain ⟨_, between⟩ := List.pairwise_flatMap.1 ascending
  have apart {first second : Nat} {left right : ThreadTable} {leftEvents rightEvents : List Event}
      (before : first < second) (foundLeft : places[first]? = some left)
      (foundRight : places[second]? = some right) (inLeft : (id, leftEvents) ∈ left.entries)
      (inRight : (id, rightEvents) ∈ right.entries) : False := by
    obtain ⟨insideLeft, rfl⟩ := List.getElem?_eq_some_iff.1 foundLeft
    obtain ⟨insideRight, rfl⟩ := List.getElem?_eq_some_iff.1 foundRight
    exact UInt32.lt_irrefl id
      (List.pairwise_iff_getElem.1 between first second _ _ before _ inLeft _ inRight)
  refine ⟨place, ⟨table, found, held⟩, fun other otherTable otherEvents foundOther inOther => ?_⟩
  rcases Nat.lt_trichotomy other place with before | rfl | after
  · exact (apart before foundOther found inOther held).elim
  · rw [found] at foundOther
    cases foundOther
    exact ⟨rfl, table.eq_of_mem inOther held⟩
  · exact (apart after found foundOther held inOther).elim

namespace Process

variable {settings : ProfilerSettings} {calibration : Calibration} {process next : Process}

/-- A process in which nothing has happened. -/
def new (settings : ProfilerSettings) (calibration : Calibration) : Process :=
  ⟨.new settings calibration, [], [], []⟩

/-- The places where an event list may be, the logs that were taken first. -/
def places (process : Process) : List ThreadTable :=
  process.taken.map (·.threads) ++ [process.registry.threads]

/-- The registry is handed what a recorder has for it, if anything. -/
def receive (process : Process) (handedOff : Option (List Event)) : Process :=
  { process with
    registry := process.registry.acceptHandOff handedOff
    handedOff := process.handedOff ++ handedOff.toList.filter fun events => !events.isEmpty }

/-- Something is done with one of the recorders. -/
def operate (process : Process) (index : Nat) (operation : Operation) : Process :=
  match process.recorders[index]? with
  | none => process
  | some recorder =>
    let (next, handedOff) := recorder.operate operation
    { process with recorders := process.recorders.set index next }.receive handedOff

/-- A thread gets a recorder. -/
def withRecorder (process : Process) : Process :=
  { process with recorders := process.recorders ++ [process.registry.recorder] }

/-- The log is taken. -/
def takeLog (process : Process) : Process :=
  let (left, log) := process.registry.takeLog
  { process with registry := left, taken := process.taken ++ [log] }

/-- The process is shut down, with files that may answer anything. A shutdown that fails keeps the
log to itself. -/
def finish {World : Type} (files : FileAccess (StateM World)) (world : World) (process : Process) :
    Process :=
  let (left, outcome) := ((process.registry.finish files).run world).1
  let log := outcome.toOption.getD process.registry.takeLog.2
  { process with registry := left, taken := process.taken ++ [log] }

/-- What may happen next in a process. One thread at a time is at the registry. -/
inductive Step (process : Process) : Process → Prop where
  | withRecorder : Step process process.withRecorder
  | operate (index : Nat) (operation : Operation) : Step process (process.operate index operation)
  | accept (events : List Event) : Step process (process.receive (some events))
  | takeLog : Step process process.takeLog
  | finish {World : Type} (files : FileAccess (StateM World)) (world : World) :
      Step process (process.finish files world)

/-- The processes that any steps lead to. -/
inductive Reached (settings : ProfilerSettings) (calibration : Calibration) : Process → Prop where
  | new : Reached settings calibration (.new settings calibration)
  | step {process next : Process} (reached : Reached settings calibration process)
      (step : Step process next) : Reached settings calibration next

/-! ## Steps -/

/-- All places together hold what the registry was handed, each list under its number. -/
structure InCustody (process : Process) : Prop where
  occupied : ∀ events ∈ process.handedOff, events ≠ []
  nextId : process.registry.nextId = .ofNat process.handedOff.length
  entries : process.places.flatMap (·.entries) = numbered process.handedOff

theorem inCustody_new (settings : ProfilerSettings) (calibration : Calibration) :
    (new settings calibration).InCustody where
  occupied := nofun
  nextId := rfl
  entries := rfl

/-- A registry holds no id that it has still to give. -/
theorem InCustody.lt_nextId (custody : process.InCustody)
    (few : process.handedOff.length < Width.bound 32) :
    ∀ entry ∈ process.registry.threads.entries, entry.1 < process.registry.nextId := by
  intro entry member
  have held : entry ∈ process.places.flatMap (·.entries) := by
    rw [places, List.flatMap_append]
    exact List.mem_append_right _ (by simpa using member)
  rw [custody.entries] at held
  obtain ⟨index, found, number⟩ := mem_numbered.1 held
  rw [number, custody.nextId]
  exact ofNat_lt_ofNat (List.getElem?_eq_some_iff.1 found).1 few

theorem InCustody.accept {events : List Event} (custody : process.InCustody)
    (few : process.handedOff.length < Width.bound 32) :
    (process.receive (some events)).InCustody := by
  cases kind : events.isEmpty with
  | true =>
      have same : process.receive (some events) = process := by
        simp [receive, Registry.acceptHandOff, Registry.accept, kind]
      rw [same]
      exact custody
  | false =>
      have entries := custody.entries
      have placed := Log.place_of_forall_lt (custody.lt_nextId few) events
      have received : process.receive (some events) = { process with
          registry := { process.registry with
            threads := process.registry.threads.insert process.registry.nextId events
            nextId := process.registry.nextId + 1 }
          handedOff := process.handedOff ++ [events] } := by
        simp [receive, Registry.acceptHandOff, Registry.accept, kind]
      rw [received]
      constructor
      case occupied =>
        intro other member
        rcases List.mem_append.1 member with older | latest
        · exact custody.occupied other older
        · rw [List.mem_singleton.1 latest]
          simpa using kind
      case nextId =>
        show process.registry.nextId + 1 = _
        rw [custody.nextId, List.length_append]
        simp
      case entries =>
        show List.flatMap _ (process.taken.map (·.threads) ++
          [process.registry.threads.insert process.registry.nextId events]) = _
        rw [numbered_concat, ← entries, places, ← custody.nextId]
        simp [ThreadTable.insert, placed]

theorem InCustody.receive {handedOff : Option (List Event)} (custody : process.InCustody)
    (few : process.handedOff.length < Width.bound 32) : (process.receive handedOff).InCustody := by
  cases handedOff with
  | none =>
      have same : process.receive none = process := by
        simp [Process.receive, Registry.acceptHandOff]
      rw [same]
      exact custody
  | some events => exact custody.accept few

/-- What is taken is in the log that was taken. -/
theorem InCustody.takeLog (custody : process.InCustody) : process.takeLog.InCustody where
  occupied := custody.occupied
  nextId := custody.nextId
  entries := by
    rw [← show _ = numbered process.takeLog.handedOff from custody.entries]
    simp [Process.takeLog, places, Registry.takeLog, ThreadTable.empty]

/-- A shutdown takes the log as it is taken otherwise, whether it fails or not. -/
theorem finish_eq_takeLog {World : Type} (files : FileAccess (StateM World)) (world : World)
    (process : Process) : process.finish files world = process.takeLog := by
  obtain ⟨left, answers⟩ := process.registry.finish_takes files world
  rw [finish]
  generalize ((process.registry.finish files).run world).1 = result at left answers
  obtain ⟨registry, outcome⟩ := result
  cases left
  cases outcome with
  | error stop => rfl
  | ok log =>
      rw [answers log rfl]
      rfl

/-- No step gives anything back that the registry was handed. -/
theorem Step.handedOff_prefix (step : Step process next) :
    process.handedOff <+: next.handedOff := by
  cases step with
  | withRecorder => exact List.prefix_rfl
  | operate index operation =>
      rw [Process.operate]
      split
      · exact List.prefix_rfl
      · exact List.prefix_append _ _
  | accept events => exact List.prefix_append _ _
  | takeLog => exact List.prefix_rfl
  | finish files world => exact List.prefix_rfl

theorem InCustody.step (custody : process.InCustody)
    (few : process.handedOff.length < Width.bound 32) (step : Step process next) :
    next.InCustody := by
  cases step with
  | withRecorder => exact ⟨custody.occupied, custody.nextId, custody.entries⟩
  | operate index operation =>
      rw [operate]
      split
      · exact custody
      · exact InCustody.receive ⟨custody.occupied, custody.nextId, custody.entries⟩ few
  | accept events => exact custody.accept few
  | takeLog => exact custody.takeLog
  | finish files world =>
      rw [finish_eq_takeLog]
      exact custody.takeLog

theorem Reached.inCustody (reached : Reached settings calibration process)
    (few : process.handedOff.length < Width.bound 32) : process.InCustody := by
  induction reached with
  | new => exact inCustody_new settings calibration
  | step _ step inductionHypothesis =>
      -- There were no more hand-offs before the step than there are after it.
      have fewBefore := step.handedOff_prefix.length_le.trans_lt few
      exact (inductionHypothesis fewBefore).step fewBefore step

/-- Whatever the threads of a process do, every event list that the registry was handed is in one
place under its number, in a log that was taken or in the registry. In the order of the hand-offs
the ids ascend, the next one comes after all of them, and only what is handed off takes one. -/
theorem Reached.keepsOnce (reached : Reached settings calibration process)
    (few : process.handedOff.length < Width.bound 32) :
    (∀ index events, process.handedOff[index]? = some events →
      events ≠ [] ∧ KeptOnce process.places (.ofNat index) events) ∧
    process.places.flatMap (·.entries) = numbered process.handedOff ∧
    (numbered process.handedOff).Pairwise (fun left right => left.1 < right.1) ∧
    process.registry.nextId = .ofNat process.handedOff.length ∧
    ∀ recorder : Recorder,
      recorder.flushed = true ∨ recorder.poisoned = true ∨
        (∀ record ∈ recorder.records, record.complete = false) →
      process.registry.acceptHandOff recorder.flush.2 = process.registry := by
  have custody := reached.inCustody few
  have ascending := numbered_ascending few.le
  refine ⟨fun index events found => ?_, custody.entries, ascending, custody.nextId, ?_⟩
  · refine ⟨custody.occupied events (List.mem_of_getElem? found), ?_⟩
    rw [← custody.entries] at ascending
    refine keptOnce_of_mem ascending ?_
    rw [custody.entries]
    exact mem_numbered.2 ⟨index, found, rfl⟩
  · intro recorder idle
    rw [Recorder.flush_eq_none idle]
    rfl

/-- A recorder records something and hands it off. -/
def job (process : Process) (index : Nat) (name : String) : Process :=
  ((process.operate index (.push name true ⟨5, 0⟩)).operate index (.pop ⟨0⟩ ⟨25, 3⟩)).operate index
    .flush

theorem Reached.job (reached : Reached settings calibration process) (index : Nat) (name : String) :
    Reached settings calibration (process.job index name) :=
  .step (.step (.step reached (.operate index _)) (.operate index _)) (.operate index _)

/-- The settings ask for an event log at a path that leads nowhere. -/
def logNowhere : ProfilerSettings := { ProfilerSettings.standard with logPath := some "" }

/-- Three hand-offs, with a log taken after the first and a shutdown that fails after the second.
Between them a recorder is dropped that has nothing to report. -/
def threeHandOffs : Process :=
  let started := (new logNowhere ⟨1000, 40, 60⟩).withRecorder.withRecorder.withRecorder
  let second := ((started.job 2 "first").takeLog.operate 1 .drop).job 0 "second"
  (second.finish FileTree.access .empty).withRecorder.job 3 "third"

theorem keepsOnce_threeHandOffs :
    (threeHandOffs.handedOff.map fun events => events.map (·.name)) =
        [["first"], ["second"], ["third"]] ∧
      (threeHandOffs.places.map fun table => table.entries.map (·.1)) = [[0], [1], [2]] ∧
      ∀ index events, threeHandOffs.handedOff[index]? = some events →
        KeptOnce threeHandOffs.places (.ofNat index) events := by
  have started : Reached logNowhere ⟨1000, 40, 60⟩
      (new logNowhere ⟨1000, 40, 60⟩).withRecorder.withRecorder.withRecorder :=
    .step (.step (.step .new .withRecorder) .withRecorder) .withRecorder
  have second := (Reached.step (.step (started.job 2 "first") .takeLog) (.operate 1 .drop)).job 0
    "second"
  have third := (Reached.step (.step second (.finish FileTree.access .empty)) .withRecorder).job 3
    "third"
  refine ⟨by decide, by decide, fun index events found => ?_⟩
  exact ((third.keepsOnce (by decide)).1 index events found).2

end Process

end Capture

end CallProfiler
