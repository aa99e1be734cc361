import CallProfiler.Proofs.Capture.Recording
import CallProfiler.Proofs.Capture.StoreRefinement

/-!
# Deliveries

The sink of a recorder receives something only when the recorder is flushed or dropped.
`run_deliveries` says what it receives over a recorder's whole life, whatever is done with the
recorder and in whatever order: one list at most, at the first flush, with the completed records
of a recorder that is not poisoned. A recorder is at work until then and emptied afterwards, and
every operation is followed through these two states.
-/

namespace CallProfiler.Capture

/-- What may be done with a recorder. -/
inductive Operation where
  | push (name : String) (frame : Bool) (now : Reading)
  | pop (handle : Handle) (now : Reading)
  | flush
  /-- The end of a recorder, which is flushed by it. -/
  | drop
deriving DecidableEq, Repr

/-- Whether an operation empties the recorder. -/
def Operation.empties : Operation → Bool
  | .push .. => false
  | .pop .. => false
  | .flush => true
  | .drop => true

/-- The record of an interval as it was when the interval was opened. -/
def Record.opened (record : Record) : Record :=
  { record with stop := ⟨0, 0⟩, complete := false }

namespace Recorder

variable {recorder : Recorder} {operation : Operation} {operations : List Operation}

/-- The recorder after an operation, and what its sink receives from it. -/
def operate (recorder : Recorder) : Operation → Recorder × Option (List Event)
  | .push name frame now => ((recorder.push name frame now).1, none)
  | .pop handle now => ((recorder.pop handle now).1, none)
  | .flush => recorder.flush
  | .drop => recorder.flush

/-- The recorder after some operations, and all that its sink receives, in order. -/
def run (recorder : Recorder) : List Operation → Recorder × List (List Event)
  | [] => (recorder, [])
  | operation :: later =>
    let (next, handedOff) := recorder.operate operation
    let (last, others) := next.run later
    (last, handedOff.toList ++ others)

/-- The events of the completed records, in the order in which their intervals were opened. -/
def completedEvents (recorder : Recorder) : List Event :=
  (recorder.records.filter (·.complete)).map Record.toEvent

theorem run_append (recorder : Recorder) (earlier later : List Operation) :
    recorder.run (earlier ++ later) =
      (((recorder.run earlier).1.run later).1,
        (recorder.run earlier).2 ++ ((recorder.run earlier).1.run later).2) := by
  induction earlier generalizing recorder with
  | nil => rfl
  | cons operation rest inductionHypothesis =>
      simp only [List.cons_append, run, inductionHypothesis, List.append_assoc]

theorem operate_of_empties (empties : operation.empties = true) (recorder : Recorder) :
    recorder.operate operation = recorder.flush := by
  cases operation with
  | push => cases empties
  | pop => cases empties
  | flush => rfl
  | drop => rfl

/-! ## Recorders at work -/

/-- A recorder that nothing has emptied yet. -/
structure AtWork (recorder : Recorder) : Prop where
  live : recorder.Live
  unflushed : recorder.flushed = false

theorem atWork_new (processClock : Bool) : (new processClock).AtWork :=
  ⟨live_new processClock, rfl⟩

/-- A recorder that has recorded nothing, on pages of any size. -/
def onPages (processClock : Bool) (store : PagedStore Record) : Recorder :=
  { new processClock with store }

theorem atWork_onPages (processClock : Bool) {pageBits : Nat} {item : ItemSize}
    {store : PagedStore Record}
    (made : PagedStore.ofItems item pageBits = .ok store) : (onPages processClock store).AtWork :=
  ⟨live_of_holds (PagedStore.holds_of_ofItems made).2, rfl⟩

theorem AtWork.push (atWork : recorder.AtWork) (name : String) (frame : Bool) (now : Reading) :
    (recorder.push name frame now).1.AtWork :=
  ⟨(push_opens atWork.live name frame now).1,
    (push_flushed recorder name frame now).trans atWork.unflushed⟩

theorem AtWork.pop (atWork : recorder.AtWork) (handle : Handle) (now : Reading) :
    (recorder.pop handle now).1.AtWork :=
  ⟨(pop_closes atWork.live handle now).1, (pop_flushed recorder handle now).trans atWork.unflushed⟩

/-- Nothing but a flush hands anything off, or ends a recorder's work. -/
theorem AtWork.operate (atWork : recorder.AtWork) (records : operation.empties = false) :
    (recorder.operate operation).1.AtWork ∧ (recorder.operate operation).2 = none := by
  cases operation with
  | push name frame now => exact ⟨atWork.push name frame now, rfl⟩
  | pop handle now => exact ⟨atWork.pop handle now, rfl⟩
  | flush => cases records
  | drop => cases records

/-- What the first flush hands off. -/
theorem AtWork.flush (atWork : recorder.AtWork) :
    recorder.flush.2 =
      if recorder.poisoned = false ∧ ∃ record ∈ recorder.records, record.complete = true then
        some recorder.completedEvents
      else none := by
  have drained := PagedStore.Holds.drain atWork.live
  have nothing : recorder.completedEvents.isEmpty = true ↔
      ¬ ∃ record ∈ recorder.records, record.complete = true := by
    rw [completedEvents, List.isEmpty_map, List.isEmpty_iff, List.filter_eq_nil_iff]
    simp
  rw [Recorder.flush, atWork.unflushed, if_neg Bool.false_ne_true]
  simp only [drained]
  rw [← completedEvents]
  by_cases due : recorder.poisoned = false ∧ ∃ record ∈ recorder.records, record.complete = true
  · rw [if_pos due, if_neg]
    rw [due.1, Bool.false_or, nothing]
    exact not_not_intro due.2
  · rw [if_neg due, if_pos]
    rw [Bool.or_eq_true, nothing, ← Bool.not_eq_false]
    exact not_and_or.1 due

/-- A handle whose slot holds nothing is refused, and changes nothing. -/
theorem pop_of_missing {handle : Handle} (missing : recorder.store.get? handle.slot = none)
    (now : Reading) :
    recorder.pop handle now = (recorder, refuse (.invalidHandle handle.slot)) := by
  rw [pop, missing]

/-- A handle is unknown just where no record has its slot. -/
theorem AtWork.pop_iff (atWork : recorder.AtWork) (handle : Handle) (now : Reading) :
    recorder.pop handle now = (recorder, refuse (.invalidHandle handle.slot)) ↔
      recorder.records[handle.slot]? = none := by
  constructor
  · intro unknown
    have closes := (pop_closes atWork.live handle now).2
    rw [unknown] at closes
    cases closes with
    | unknown missing => exact missing
  · intro missing
    exact pop_of_missing ((PagedStore.Holds.get?_eq atWork.live handle.slot).trans missing) now

/-! ## Emptied recorders -/

/-- A recorder that was flushed: it holds nothing, and its store takes nothing in. -/
structure Emptied (recorder : Recorder) : Prop where
  flushed : recorder.flushed = true
  drained : recorder.store.drained = true
  pages : recorder.store.pages = #[]

theorem AtWork.emptied_flush (atWork : recorder.AtWork) : recorder.flush.1.Emptied := by
  have undrained := PagedStore.Holds.not_drained atWork.live
  rw [Recorder.flush, atWork.unflushed, if_neg Bool.false_ne_true, PagedStore.drain,
    if_neg undrained]
  exact ⟨rfl, rfl, rfl⟩

theorem Emptied.records (emptied : recorder.Emptied) : recorder.records = [] := by
  rw [Recorder.records, PagedStore.toList, emptied.pages]
  rfl

/-- All handles are unknown to an emptied recorder. -/
theorem Emptied.pop (emptied : recorder.Emptied) (handle : Handle) (now : Reading) :
    recorder.pop handle now = (recorder, refuse (.invalidHandle handle.slot)) := by
  refine pop_of_missing ?_ now
  rw [PagedStore.get?, emptied.pages]
  rfl

theorem Emptied.openRecord (emptied : recorder.Emptied) (name : String) (frame : Bool)
    (now : Reading) :
    recorder.openRecord name frame now = (recorder, .error .allocAfterDrain) := by
  rw [Recorder.openRecord, PagedStore.alloc, if_pos emptied.drained]

/-- An emptied recorder opens nothing. -/
theorem Emptied.push (emptied : recorder.Emptied) (name : String) (frame : Bool) (now : Reading) :
    (recorder.push name frame now).1.Emptied ∧
      ∃ fault, (recorder.push name frame now).2 = .error fault := by
  rw [Recorder.push]
  split
  · have reserved (count : Nat) : recorder.store.reserve count = .error .reserveAfterDrain := by
      rw [PagedStore.reserve, if_pos emptied.drained]
    cases counted : Checked.subtract recorder.store.length recorder.unitStart with
    | error reached =>
        simp only [startUnit, counted]
        exact ⟨emptied, reached, rfl⟩
    | ok items =>
        simp only [startUnit, counted, reserved]
        exact ⟨⟨emptied.flushed, emptied.drained, emptied.pages⟩, _, rfl⟩
  · rw [emptied.openRecord]
    exact ⟨emptied, _, rfl⟩

/-- Whatever is done with an emptied recorder, its sink receives nothing more. -/
theorem Emptied.operate (emptied : recorder.Emptied) (operation : Operation) :
    (recorder.operate operation).1.Emptied ∧ (recorder.operate operation).2 = none := by
  have flushed : recorder.flush = (recorder, none) := by
    rw [Recorder.flush, if_pos emptied.flushed]
  cases operation with
  | push name frame now => exact ⟨(emptied.push name frame now).1, rfl⟩
  | pop handle now =>
      rw [Recorder.operate, emptied.pop handle now]
      exact ⟨emptied, rfl⟩
  | flush =>
      rw [Recorder.operate, flushed]
      exact ⟨emptied, rfl⟩
  | drop =>
      rw [Recorder.operate, flushed]
      exact ⟨emptied, rfl⟩

theorem Emptied.run (emptied : recorder.Emptied) (operations : List Operation) :
    (recorder.run operations).1.Emptied ∧ (recorder.run operations).2 = [] := by
  induction operations generalizing recorder with
  | nil => exact ⟨emptied, rfl⟩
  | cons operation later inductionHypothesis =>
      obtain ⟨next, nothing⟩ := emptied.operate operation
      obtain ⟨last, none⟩ := inductionHypothesis next
      refine ⟨last, ?_⟩
      rw [Recorder.run]
      simp only [nothing, none, Option.toList_none, List.append_nil]

/-! ## Whole lives -/

/-- The operations before the first that empties the recorder. -/
def recording (operations : List Operation) : List Operation :=
  operations.takeWhile fun operation => !operation.empties

/-- A recorder is at work until it is emptied, and hands off what it then holds. -/
theorem AtWork.run (atWork : recorder.AtWork) (operations : List Operation) :
    (if operations.any (·.empties) then (recorder.run operations).1.Emptied
      else (recorder.run operations).1.AtWork) ∧
      (recorder.run operations).2 =
        if operations.any (·.empties) then
          (recorder.run (recording operations)).1.flush.2.toList
        else [] := by
  induction operations generalizing recorder with
  | nil => exact ⟨atWork, rfl⟩
  | cons operation later inductionHypothesis =>
      cases empties : operation.empties with
      | false =>
          obtain ⟨next, nothing⟩ := atWork.operate empties
          have others := inductionHypothesis next
          simpa only [List.any_cons, empties, Bool.false_or, recording, List.takeWhile_cons,
            Bool.not_false, if_true, Recorder.run, nothing, Option.toList_none, List.nil_append]
            using others
      | true =>
          -- What comes later finds an emptied recorder.
          have emptied := atWork.emptied_flush.run later
          simp only [List.any_cons, empties, Bool.true_or, if_true, recording, List.takeWhile_cons,
            Bool.not_true, Bool.false_eq_true, if_false, Recorder.run,
            operate_of_empties empties, emptied.2, List.append_nil]
          exact ⟨emptied.1, trivial⟩

theorem empties_of_mem_recording (member : operation ∈ recording operations) :
    operation.empties = false := by
  have all : (recording operations).all (fun operation => !operation.empties) = true :=
    List.all_takeWhile
  simpa using List.all_eq_true.1 all operation member

/-! ## What is recorded -/

/-- The record at a slot is completed. -/
def IsCompleted (recorder : Recorder) (slot : Nat) : Prop :=
  recorder.records[slot]?.map (·.complete) = some true

theorem isCompleted_concat {next : Recorder} {record : Record}
    (records : next.records = recorder.records ++ [record]) (incomplete : record.complete = false)
    (slot : Nat) : next.IsCompleted slot ↔ recorder.IsCompleted slot := by
  rw [IsCompleted, IsCompleted, records]
  rcases Nat.lt_trichotomy slot recorder.records.length with inside | rfl | beyond
  · rw [List.getElem?_append_left inside]
  · simp [incomplete]
  · rw [List.getElem?_eq_none (by rw [List.length_append]; exact beyond),
      List.getElem?_eq_none (Nat.le_of_lt beyond)]

/-- While a recorder is at work, a pop that succeeds completes the record at its slot, and nothing
else completes a record or takes completion back. -/
theorem AtWork.isCompleted_operate (atWork : recorder.AtWork) (records : operation.empties = false)
    (slot : Nat) :
    (recorder.operate operation).1.IsCompleted slot ↔
      (∃ handle now, operation = .pop handle now ∧ handle.slot = slot ∧
        (recorder.pop handle now).2 = .ok ()) ∨ recorder.IsCompleted slot := by
  cases operation with
  | flush => cases records
  | drop => cases records
  | push name frame now =>
      have opens := (push_opens atWork.live name frame now).2
      have same : (recorder.push name frame now).1.IsCompleted slot ↔
          recorder.IsCompleted slot := by
        generalize recorder.push name frame now = result at opens
        obtain ⟨next, outcome⟩ := result
        cases opens with
        | opened records => exact isCompleted_concat records rfl slot
        | failed _ records =>
            rcases records with same | one
            · rw [IsCompleted, same, IsCompleted]
            · exact isCompleted_concat one rfl slot
      refine same.trans (or_iff_right ?_).symm
      rintro ⟨_, _, different, _⟩
      cases different
  | pop handle now =>
      have closes := (pop_closes atWork.live handle now).2
      have popped : (recorder.pop handle now).1.IsCompleted slot ↔
          (handle.slot = slot ∧ (recorder.pop handle now).2 = .ok ()) ∨
            recorder.IsCompleted slot := by
        generalize recorder.pop handle now = result at closes
        obtain ⟨next, outcome⟩ := result
        cases closes with
        | unknown => simp
        | uncounted => simp
        | violated _ _ _ records => simp [IsCompleted, records]
        | closed found _ records =>
            rw [IsCompleted, IsCompleted, records, List.getElem?_modify]
            by_cases same : handle.slot = slot
            · subst same
              simp [found, Record.close]
            · simp [same]
      refine popped.trans (or_congr_left ⟨fun closed => ⟨handle, now, rfl, closed⟩, ?_⟩)
      rintro ⟨_, _, same, closed⟩
      cases same
      exact closed

/-- A completed record is one that a pop completed. -/
theorem AtWork.isCompleted_run (atWork : recorder.AtWork)
    (records : ∀ operation ∈ operations, operation.empties = false) (slot : Nat) :
    (recorder.run operations).1.IsCompleted slot ↔ recorder.IsCompleted slot ∨
      ∃ earlier handle now later, operations = earlier ++ .pop handle now :: later ∧
        handle.slot = slot ∧ ((recorder.run earlier).1.pop handle now).2 = .ok () := by
  induction operations generalizing recorder with
  | nil => simp [Recorder.run]
  | cons operation rest inductionHypothesis =>
      obtain ⟨first, others⟩ := List.forall_mem_cons.1 records
      refine (inductionHypothesis (atWork.operate first).1 others).trans ?_
      rw [atWork.isCompleted_operate first]
      constructor
      · rintro ((⟨handle, now, rfl, same, closed⟩ | old) |
          ⟨earlier, handle, now, later, rfl, same, closed⟩)
        · exact .inr ⟨[], handle, now, rest, rfl, same, closed⟩
        · exact .inl old
        · exact .inr ⟨operation :: earlier, handle, now, later, rfl, same, closed⟩
      · rintro (old | ⟨earlier, handle, now, later, split, same, closed⟩)
        · exact .inl (.inr old)
        · cases earlier with
          | nil =>
              obtain ⟨rfl, rfl⟩ := List.cons.inj split
              exact .inl (.inl ⟨handle, now, rfl, same, closed⟩)
          | cons =>
              obtain ⟨rfl, rfl⟩ := List.cons.inj split
              exact .inr ⟨_, handle, now, later, rfl, same, closed⟩

/-- While a recorder is at work its records stay as they were opened, and others come after. -/
theorem AtWork.opened_operate (atWork : recorder.AtWork) (records : operation.empties = false) :
    recorder.records.map Record.opened <+:
      (recorder.operate operation).1.records.map Record.opened := by
  cases operation with
  | flush => cases records
  | drop => cases records
  | push name frame now =>
      have opens := (push_opens atWork.live name frame now).2
      rw [Recorder.operate]
      generalize recorder.push name frame now = result at opens
      obtain ⟨next, outcome⟩ := result
      cases opens with
      | opened records =>
          rw [records, List.map_append]
          exact List.prefix_append _ _
      | failed _ records =>
          rcases records with same | one
          · exact ⟨[], by rw [List.append_nil, same]⟩
          · rw [one, List.map_append]
            exact List.prefix_append _ _
  | pop handle now =>
      have closes := (pop_closes atWork.live handle now).2
      rw [Recorder.operate]
      generalize recorder.pop handle now = result at closes
      obtain ⟨next, outcome⟩ := result
      cases closes with
      | unknown => exact List.prefix_rfl
      | uncounted => exact List.prefix_rfl
      | violated _ _ _ records => exact ⟨[], by rw [List.append_nil, records]⟩
      | closed _ _ records => exact ⟨[], by rw [List.append_nil, records, map_close fun _ => rfl]⟩

theorem AtWork.opened_run (atWork : recorder.AtWork)
    (records : ∀ operation ∈ operations, operation.empties = false) :
    (recorder.run operations).1.AtWork ∧ recorder.records.map Record.opened <+:
      (recorder.run operations).1.records.map Record.opened := by
  induction operations generalizing recorder with
  | nil => exact ⟨atWork, List.prefix_rfl⟩
  | cons operation rest inductionHypothesis =>
      obtain ⟨first, others⟩ := List.forall_mem_cons.1 records
      obtain ⟨next, kept⟩ := inductionHypothesis (atWork.operate first).1 others
      exact ⟨next, (atWork.opened_operate first).trans kept⟩

/-- What the records are after some operations of which none empties the recorder. -/
structure Recorded (start : Recorder) (operations : List Operation) : Prop where
  /-- An interval that got a handle has its record behind those of all intervals opened before. -/
  opened : ∀ earlier name frame now later handle,
    operations = earlier ++ .push name frame now :: later →
    ((start.run earlier).1.push name frame now).2 = .ok handle →
      handle.slot = (start.run earlier).1.records.length ∧
      (start.run operations).1.records[handle.slot]?.map Record.opened =
        some ((start.run earlier).1.opening name frame now)
  /-- The completed records are those that a pop completed. -/
  completed : ∀ slot, (start.run operations).1.IsCompleted slot ↔
    ∃ earlier handle now later, operations = earlier ++ .pop handle now :: later ∧
      handle.slot = slot ∧ ((start.run earlier).1.pop handle now).2 = .ok ()

theorem recorded (processClock : Bool)
    (records : ∀ operation ∈ operations, operation.empties = false) :
    Recorded (new processClock) operations := by
  have start := atWork_new processClock
  constructor
  case completed =>
    intro slot
    rw [start.isCompleted_run records, or_iff_right]
    simp [IsCompleted]
  case opened =>
    rintro earlier name frame now later handle rfl given
    obtain ⟨before, after⟩ := List.forall_mem_append.1 records
    obtain ⟨pushes, others⟩ := List.forall_mem_cons.1 after
    have atWork := (start.opened_run before).1
    have opens := (push_opens atWork.live name frame now).2
    have kept := ((atWork.operate pushes).1.opened_run others).2
    rw [run_append]
    simp only [run]
    simp only [operate] at kept ⊢
    generalize ((new processClock).run earlier).1.push name frame now = result at opens given kept
    obtain ⟨next, outcome⟩ := result
    cases given
    cases opens with
    | opened records =>
        refine ⟨rfl, ?_⟩
        obtain ⟨others, extended⟩ := kept
        rw [← List.getElem?_map, ← extended, records]
        simp [Record.opened, opening]

/-- Whatever is done with a recorder, and in whatever order, its sink receives one list at most:
at the first flush or drop, and just where the recorder then is not poisoned and has a completed
record, the events of all its completed records, in the order in which their intervals were opened.
A pop whose handle is unknown is refused and changes nothing, and to a recorder that was flushed
all handles are unknown. -/
theorem run_deliveries (processClock : Bool) (operations : List Operation) :
    let filled := ((new processClock).run (recording operations)).1
    let last := (new processClock).run operations
    (last.2 =
      if operations.any (·.empties) = true ∧ filled.poisoned = false ∧
          ∃ record ∈ filled.records, record.complete = true then
        [filled.completedEvents]
      else []) ∧
    last.2.length ≤ 1 ∧
    Recorded (new processClock) (recording operations) ∧
    (∀ handle now, last.1.pop handle now = (last.1, refuse (.invalidHandle handle.slot)) ↔
      last.1.records[handle.slot]? = none) ∧
    (operations.any (·.empties) = true → last.1.records = []) := by
  intro filled last
  have start := atWork_new processClock
  have records : ∀ operation ∈ recording operations, operation.empties = false :=
    fun _ => empties_of_mem_recording
  have atWork : filled.AtWork := (start.opened_run records).1
  obtain ⟨state, received⟩ := start.run operations
  rw [atWork.flush] at received
  have delivered : last.2 =
      if operations.any (·.empties) = true ∧ filled.poisoned = false ∧
          ∃ record ∈ filled.records, record.complete = true then
        [filled.completedEvents]
      else [] := by
    rw [ite_and, received]
    split
    · split <;> rfl
    · rfl
  refine ⟨delivered, ?_, recorded processClock records, ?_, ?_⟩
  · rw [delivered]
    split <;> simp
  · intro handle now
    split at state
    · exact iff_of_true (state.pop handle now) (by simp [state.records, last])
    · exact state.pop_iff handle now
  · intro flushed
    rw [if_pos flushed] at state
    exact state.records

example : ((new false).run [.push "load" true ⟨5, 0⟩, .push "parse" false ⟨6, 0⟩, .pop ⟨1⟩ ⟨9, 1⟩,
    .flush, .pop ⟨0⟩ ⟨25, 3⟩, .push "late" true ⟨30, 3⟩, .drop]).2 =
      [[⟨"parse", 1, false, false, 6, 9, 1⟩]] := by decide

end Recorder

end CallProfiler.Capture
