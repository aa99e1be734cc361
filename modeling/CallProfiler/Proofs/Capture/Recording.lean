import CallProfiler.Capture.Recorder
import CallProfiler.Proofs.Capture.PagedStore

/-!
# What a recorder has recorded

A recorder is seen as the list of its records, in the order in which their intervals were
opened. `Opens` and `Closes` are the ways in which a push and a pop can end; `push_opens` and
`pop_closes` show that there are no others, and everything about runs of a recorder starts from
these two.
-/

namespace CallProfiler.Capture

/-- The record of an interval that ends now. -/
def Record.close (now : Reading) (record : Record) : Record :=
  { record with stop := now, complete := true }

/-- Closing an interval leaves every record as it was opened. -/
theorem map_close {β : Type} {observe : Record → β} {now : Reading}
    (same : ∀ record, observe (Record.close now record) = observe record)
    (records : List Record) (slot : Nat) :
    (records.modify slot (Record.close now)).map observe = records.map observe := by
  refine List.ext_getElem? fun index => ?_
  rw [List.getElem?_map, List.getElem?_map, List.getElem?_modify, Option.map_eq_map,
    Option.map_map]
  congr 1
  funext record
  rw [Function.comp_apply]
  split
  · exact same record
  · rfl

/-- What closing keeps of every record stays true of all. -/
theorem forall_close {good : Record → Prop} {now : Reading} {records : List Record}
    (keeps : ∀ record, good record → good (Record.close now record))
    (all : ∀ record ∈ records, good record) (slot : Nat) :
    ∀ record ∈ records.modify slot (Record.close now), good record := by
  intro record member
  obtain ⟨index, found⟩ := List.mem_iff_getElem?.1 member
  rw [List.getElem?_modify] at found
  obtain ⟨old, foundOld, rfl⟩ := Option.map_eq_some_iff.1 found
  have goodOld := all old (List.mem_of_getElem? foundOld)
  split
  · exact keeps old goodOld
  · exact goodOld

namespace Recorder

variable {recorder next : Recorder} {name : String} {frame : Bool} {now : Reading}
  {handle : Handle}

/-- The records of a recorder, in the order in which their intervals were opened. -/
def records (recorder : Recorder) : List Record := recorder.store.toList

/-- The recorder was not emptied, and its store holds its records. -/
def Live (recorder : Recorder) : Prop := recorder.store.Holds recorder.records

/-- The record of an interval that is opened now. -/
def opening (recorder : Recorder) (name : String) (frame : Bool) (now : Reading) : Record :=
  ⟨name, recorder.depth, frame, recorder.processClock, now, ⟨0, 0⟩, false⟩

/-- How the opening of an interval ends. A recorder that has no room left, or that cannot count
one level more, gives no handle and keeps its depth. -/
inductive Opens (recorder : Recorder) (record : Record) :
    Recorder → Except Fault Handle → Prop where
  | opened {next : Recorder} (records : next.records = recorder.records ++ [record])
      (depth : next.depth = recorder.depth + 1) (fits : Width.fitsSigned 32 next.depth = true)
      (poisoned : next.poisoned = recorder.poisoned) :
      Opens recorder record next (.ok ⟨recorder.records.length⟩)
  | failed {next : Recorder} (reached : Fault)
      (records : next.records = recorder.records ∨ next.records = recorder.records ++ [record])
      (depth : next.depth = recorder.depth) (poisoned : next.poisoned = recorder.poisoned) :
      Opens recorder record next (.error reached)

/-- How the closing of an interval ends. -/
inductive Closes (recorder : Recorder) (handle : Handle) (now : Reading) :
    Recorder → Except (Stop CaptureError) Unit → Prop where
  | unknown (missing : recorder.records[handle.slot]? = none) :
      Closes recorder handle now recorder (refuse (.invalidHandle handle.slot))
  | uncounted (narrow : Width.fitsSigned 32 (recorder.depth - 1) = false) :
      Closes recorder handle now recorder (.error (.fault .subtractOverflow))
  | violated {next : Recorder} {record : Record} (diagnostic : Diagnostic)
      (found : recorder.records[handle.slot]? = some record)
      (other : record.level ≠ recorder.depth - 1) (records : next.records = recorder.records)
      (depth : next.depth = recorder.depth - 1) (poisoned : next.poisoned = true) :
      Closes recorder handle now next (refuse (.stackMismatch diagnostic))
  | closed {next : Recorder} {record : Record}
      (found : recorder.records[handle.slot]? = some record)
      (innermost : record.level = recorder.depth - 1)
      (records : next.records = recorder.records.modify handle.slot (Record.close now))
      (depth : next.depth = recorder.depth - 1) (fits : Width.fitsSigned 32 next.depth = true)
      (poisoned : next.poisoned = recorder.poisoned) :
      Closes recorder handle now next (.ok ())

theorem Opens.poisoned_eq {record : Record} {outcome : Except Fault Handle}
    (opens : Opens recorder record next outcome) : next.poisoned = recorder.poisoned := by
  cases opens with
  | opened _ _ _ poisoned => exact poisoned
  | failed _ _ _ poisoned => exact poisoned

/-- No closing heals a recorder. -/
theorem Closes.healthy {outcome : Except (Stop CaptureError) Unit}
    (closes : Closes recorder handle now next outcome) (healthy : next.poisoned = false) :
    recorder.poisoned = false := by
  cases closes with
  | unknown => exact healthy
  | uncounted => exact healthy
  | violated _ _ _ _ _ poisoned => rw [poisoned] at healthy; cases healthy
  | closed _ _ _ _ _ poisoned => rw [← poisoned]; exact healthy

/-! ## Stores behind recorders -/

theorem records_eq {items : List Record} (holds : recorder.store.Holds items) :
    recorder.records = items :=
  holds.toList_eq

theorem live_of_holds {items : List Record} (holds : recorder.store.Holds items) :
    recorder.Live := by
  rw [Live, records_eq holds]
  exact holds

theorem live_new (processClock : Bool) : (new processClock).Live :=
  live_of_holds PagedStore.Holds.new

@[simp] theorem records_new (processClock : Bool) : (new processClock).records = [] :=
  records_eq PagedStore.Holds.new

/-! ## Opening -/

/-- Two recorders with the same records, which may have room for different numbers of others. -/
structure Alike (left right : Recorder) : Prop where
  records : left.records = right.records
  depth : left.depth = right.depth
  processClock : left.processClock = right.processClock
  poisoned : left.poisoned = right.poisoned

/-- What becomes of a recorder does not depend on the room it has. -/
theorem Opens.of_alike {middle : Recorder} {record : Record} {outcome : Except Fault Handle}
    (alike : Alike middle recorder) (opens : Opens middle record next outcome) :
    Opens recorder record next outcome := by
  cases opens with
  | opened records depth fits poisoned =>
      rw [alike.records] at records ⊢
      exact .opened records (alike.depth ▸ depth) fits (alike.poisoned ▸ poisoned)
  | failed reached records depth poisoned =>
      rw [alike.records] at records
      exact .failed reached records (alike.depth ▸ depth) (alike.poisoned ▸ poisoned)

/-- Making room for a unit records nothing. -/
theorem startUnit_alike (live : recorder.Live) :
    recorder.startUnit.1.Live ∧ Alike recorder.startUnit.1 recorder := by
  simp only [startUnit]
  split
  · exact ⟨live, rfl, rfl, rfl, rfl⟩
  · split
    · exact ⟨live, rfl, rfl, rfl, rfl⟩
    · rename_i store reserved
      have holds := PagedStore.Holds.reserve live reserved
      exact ⟨live_of_holds holds, records_eq holds, rfl, rfl, rfl⟩

theorem openRecord_opens (live : recorder.Live) (name : String) (frame : Bool) (now : Reading) :
    (recorder.openRecord name frame now).1.Live ∧
      Opens recorder (recorder.opening name frame now) (recorder.openRecord name frame now).1
        (recorder.openRecord name frame now).2 := by
  obtain ⟨store, allocated, holds⟩ :=
    PagedStore.Holds.alloc live (recorder.opening name frame now)
  rw [opening] at allocated
  simp only [openRecord, allocated]
  split
  · rename_i reached _
    exact ⟨live_of_holds holds, .failed reached (.inr (records_eq holds)) rfl rfl⟩
  · rename_i depth counted
    rw [Checked.addSigned] at counted
    split at counted
    · rename_i fits
      cases counted
      rw [PagedStore.Holds.length live]
      exact ⟨live_of_holds holds, .opened (records_eq holds) rfl fits rfl⟩
    · cases counted

/-- A push opens an interval in one of these ways. -/
theorem push_opens (live : recorder.Live) (name : String) (frame : Bool) (now : Reading) :
    (recorder.push name frame now).1.Live ∧
      Opens recorder (recorder.opening name frame now) (recorder.push name frame now).1
        (recorder.push name frame now).2 := by
  rw [push]
  split
  · obtain ⟨roomLive, alike⟩ := startUnit_alike live
    split
    · rename_i middle reached started
      rw [started] at roomLive alike
      exact ⟨roomLive, .failed reached (.inl alike.records) alike.depth alike.poisoned⟩
    · rename_i middle started
      rw [started] at roomLive alike
      dsimp only at roomLive alike
      obtain ⟨nextLive, opens⟩ := openRecord_opens roomLive name frame now
      have sameRecord : middle.opening name frame now = recorder.opening name frame now := by
        rw [opening, opening, alike.depth, alike.processClock]
      rw [sameRecord] at opens
      exact ⟨nextLive, opens.of_alike alike⟩
  · exact openRecord_opens live name frame now

/-- Making room for a unit changes the store and what is known of units. -/
theorem startUnit_same (recorder : Recorder) :
    ∃ store unitStart largestUnit,
      recorder.startUnit.1 = { recorder with store, unitStart, largestUnit } := by
  simp only [startUnit]
  split
  · exact ⟨_, _, _, rfl⟩
  · split <;> exact ⟨_, _, _, rfl⟩

theorem openRecord_same (recorder : Recorder) (name : String) (frame : Bool) (now : Reading) :
    ∃ store depth, (recorder.openRecord name frame now).1 = { recorder with store, depth } := by
  simp only [openRecord]
  split
  · exact ⟨_, _, rfl⟩
  · split <;> exact ⟨_, _, rfl⟩

/-- A push leaves the clock of a recorder alone, and whether it was poisoned or flushed. -/
theorem push_same (recorder : Recorder) (name : String) (frame : Bool) (now : Reading) :
    ∃ store depth unitStart largestUnit, (recorder.push name frame now).1 =
      { recorder with store, depth, unitStart, largestUnit } := by
  obtain ⟨store, unitStart, largestUnit, started⟩ := startUnit_same recorder
  rw [push]
  split
  · split
    · rename_i stopped
      rw [stopped] at started
      exact ⟨store, _, unitStart, largestUnit, started⟩
    · rename_i ready
      rw [ready] at started
      cases started
      obtain ⟨store, depth, opened⟩ := openRecord_same
        { recorder with store, unitStart, largestUnit } name frame now
      exact ⟨store, depth, unitStart, largestUnit, opened⟩
  · obtain ⟨store, depth, opened⟩ := openRecord_same recorder name frame now
    exact ⟨store, depth, _, _, opened⟩

theorem startUnit_processClock (recorder : Recorder) :
    recorder.startUnit.1.processClock = recorder.processClock := by
  obtain ⟨_, _, _, same⟩ := startUnit_same recorder
  rw [same]

theorem openRecord_processClock (recorder : Recorder) (name : String) (frame : Bool)
    (now : Reading) :
    (recorder.openRecord name frame now).1.processClock = recorder.processClock := by
  obtain ⟨_, _, same⟩ := openRecord_same recorder name frame now
  rw [same]

/-- A recorder keeps the clock that it was made for. -/
theorem push_processClock (recorder : Recorder) (name : String) (frame : Bool) (now : Reading) :
    (recorder.push name frame now).1.processClock = recorder.processClock := by
  obtain ⟨_, _, _, _, same⟩ := push_same recorder name frame now
  rw [same]

theorem push_flushed (recorder : Recorder) (name : String) (frame : Bool) (now : Reading) :
    (recorder.push name frame now).1.flushed = recorder.flushed := by
  obtain ⟨_, _, _, _, same⟩ := push_same recorder name frame now
  rw [same]

/-! ## Closing -/

/-- A pop closes an interval in one of these ways. -/
theorem pop_closes (live : recorder.Live) (handle : Handle) (now : Reading) :
    (recorder.pop handle now).1.Live ∧
      Closes recorder handle now (recorder.pop handle now).1 (recorder.pop handle now).2 := by
  have getRecord := PagedStore.Holds.get?_eq live handle.slot
  rw [pop]
  split
  · rename_i missing
    rw [getRecord] at missing
    exact ⟨live, .unknown missing⟩
  · rename_i record found
    rw [getRecord] at found
    simp only [Checked.subtractSigned]
    split
    · rename_i uncounted
      split at uncounted
      · cases uncounted
      · rename_i narrow
        cases uncounted
        exact ⟨live, .uncounted (by simpa using narrow)⟩
    · rename_i depth counted
      split at counted
      · rename_i fits
        cases counted
        split
        · rename_i other
          exact ⟨live, .violated _ found other rfl rfl rfl⟩
        · rename_i innermost
          have holds := PagedStore.Holds.modify live handle.slot (Record.close now)
          exact ⟨live_of_holds holds,
            .closed found (not_not.1 innermost) (records_eq holds) rfl fits rfl⟩
      · cases counted

/-- A pop leaves the clock of a recorder alone, and whether it was flushed. -/
theorem pop_same (recorder : Recorder) (handle : Handle) (now : Reading) :
    ∃ store depth poisoned,
      (recorder.pop handle now).1 = { recorder with store, depth, poisoned } := by
  simp only [pop]
  split
  · exact ⟨_, _, _, rfl⟩
  · split
    · exact ⟨_, _, _, rfl⟩
    · split <;> exact ⟨_, _, _, rfl⟩

theorem pop_processClock (recorder : Recorder) (handle : Handle) (now : Reading) :
    (recorder.pop handle now).1.processClock = recorder.processClock := by
  obtain ⟨_, _, _, same⟩ := pop_same recorder handle now
  rw [same]

theorem pop_flushed (recorder : Recorder) (handle : Handle) (now : Reading) :
    (recorder.pop handle now).1.flushed = recorder.flushed := by
  obtain ⟨_, _, _, same⟩ := pop_same recorder handle now
  rw [same]

/-! ## Handing off -/

/-- What a recorder hands off: the events of its completed records, unless it is poisoned. -/
theorem flush_eq_some {events : List Event} (live : recorder.Live)
    (handedOff : recorder.flush.2 = some events) :
    recorder.poisoned = false ∧
      events = (recorder.records.filter (·.complete)).map Record.toEvent := by
  have drained := PagedStore.Holds.drain live
  rw [flush] at handedOff
  split at handedOff
  · cases handedOff
  · simp only [drained] at handedOff
    split at handedOff
    · cases handedOff
    · rename_i wanted
      cases handedOff
      rw [Bool.or_eq_true, not_or] at wanted
      exact ⟨by simpa using wanted.1, rfl⟩

theorem flushed_flush (recorder : Recorder) : recorder.flush.1.flushed = true := by
  rw [flush]
  split
  · assumption
  · rfl

/-- A recorder hands off once. -/
theorem flush_flush (recorder : Recorder) : recorder.flush.1.flush.2 = none := by
  rw [flush, if_pos (flushed_flush recorder)]

/-- Nothing is handed off rather than an empty list. -/
theorem flush_ne_nil {events : List Event} (handedOff : recorder.flush.2 = some events) :
    events ≠ [] := by
  rw [flush] at handedOff
  split at handedOff
  · cases handedOff
  · dsimp only at handedOff
    split at handedOff
    · cases handedOff
    · rename_i wanted
      cases handedOff
      simp_all

/-- A recorder that was flushed, or that is poisoned, or that has no completed record, has nothing
to report. -/
theorem flush_eq_none (idle : recorder.flushed = true ∨ recorder.poisoned = true ∨
      ∀ record ∈ recorder.records, record.complete = false) : recorder.flush.2 = none := by
  rw [flush]
  split
  · rfl
  · rename_i unflushed
    dsimp only
    rw [if_pos]
    rw [Bool.or_eq_true]
    rcases idle with flushed | poisoned | incomplete
    · exact absurd flushed unflushed
    · exact .inl poisoned
    · have nothing : recorder.store.drain.2.filter (·.complete) = [] := by
        refine List.filter_eq_nil_iff.2 fun record member => ?_
        rw [PagedStore.drain] at member
        split at member
        · cases member
        · rw [incomplete record member]
          exact Bool.false_ne_true
      rw [nothing]
      exact .inr rfl

end Recorder

end CallProfiler.Capture
