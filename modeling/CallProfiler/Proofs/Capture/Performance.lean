import CallProfiler.Forest
import CallProfiler.Proofs.Capture.Recording
import CallProfiler.Proofs.Outcome

/-!
# Runs of nested calls

A program that makes calls inside calls records every one of them: a push before the call, a
pop of the handle that the push returned after it. `Recorder.perform` is such a run of a whole
forest of calls. `Ready` is what the calls of one level find and leave behind, and
`Ready.perform` follows it through a run: the records are those of the forest in preorder, at
their depths, whatever the shape of the forest.
-/

namespace CallProfiler

/-- The most trees that lie inside each other. -/
def Forest.height {α : Type} : Forest α → Nat
  | .nil => 0
  | .node _ children siblings => max (children.height + 1) siblings.height

namespace Capture

/-- A call of a program, with the clocks at its beginning and at its end. -/
structure Invocation where
  name : String
  frame : Bool
  opened : Reading
  closed : Reading
deriving DecidableEq, Repr

/-- The record of a call that is over. -/
def Invocation.record (processClock : Bool) (depth : Nat) (call : Invocation) : Record :=
  ⟨call.name, depth, call.frame, processClock, call.opened, call.closed, true⟩

/-- The records of the calls of a forest, in preorder, `above` being the calls around it. -/
def recordsOf (processClock : Bool) (above : List Invocation) (forest : Forest Invocation) :
    List Record :=
  (forest.ancestry above).map fun (call, around) => call.record processClock around.length

theorem recordsOf_node (processClock : Bool) (above : List Invocation) (call : Invocation)
    (inner later : Forest Invocation) :
    recordsOf processClock above (.node call inner later) =
      call.record processClock above.length ::
        (recordsOf processClock (call :: above) inner ++ recordsOf processClock above later) := by
  simp [recordsOf, Forest.ancestry]

theorem length_recordsOf (processClock : Bool) (above : List Invocation)
    (forest : Forest Invocation) :
    (recordsOf processClock above forest).length = forest.size := by
  rw [recordsOf, List.length_map, ← Forest.length_preorder, ← forest.map_fst_ancestry above,
    List.length_map]

theorem modify_length_append {α : Type} (before after : List α) (entry : α) (change : α → α) :
    (before ++ entry :: after).modify before.length change = before ++ change entry :: after := by
  induction before with
  | nil => rfl
  | cons head rest inductionHypothesis =>
      rw [List.cons_append, List.length_cons, List.modify_succ_cons, inductionHypothesis]
      rfl

/-- What a run of calls comes to. -/
structure Performance where
  /-- The recorder after the last call. -/
  recorder : Recorder
  /-- The recorder after every single push and pop. -/
  passed : List Recorder
  /-- What the pops answered. -/
  closings : List (Except (Stop CaptureError) Unit)

namespace Recorder

/-- Make the calls of a forest, one after the other, each with the calls inside it. Only a push
that gives no handle ends the run. -/
def perform (recorder : Recorder) : Forest Invocation → Except Fault Performance
  | .nil => .ok ⟨recorder, [], []⟩
  | .node call inner later => do
    let (opened, outcome) := recorder.push call.name call.frame call.opened
    let handle ← outcome
    let within ← opened.perform inner
    let (closed, closing) := within.recorder.pop handle call.closed
    let rest ← closed.perform later
    return {
      recorder := rest.recorder
      passed := opened :: (within.passed ++ closed :: rest.passed)
      closings := within.closings ++ closing :: rest.closings }

variable {recorder next : Recorder} {around : Nat}

/-- A recorder at work, with this many intervals open and room to be made in standard pages. -/
structure Ready (recorder : Recorder) (around : Nat) : Prop where
  live : recorder.Live
  healthy : recorder.poisoned = false
  unflushed : recorder.flushed = false
  depth : recorder.depth = around
  fits : around < Width.bound 31
  standard : recorder.store.pageBits = PagedStore.standardPageBits
  unitStart : recorder.unitStart ≤ recorder.records.length
  largestUnit : recorder.largestUnit ≤ recorder.records.length

theorem ready_new (processClock : Bool) : (new processClock).Ready 0 where
  live := live_new processClock
  healthy := rfl
  unflushed := rfl
  depth := rfl
  fits := Width.bound_pos 31
  standard := rfl
  unitStart := Nat.zero_le _
  largestUnit := Nat.zero_le _

/-! ## Steps -/

/-- Making room for a unit changes neither the records nor the depth. -/
theorem Ready.startUnit (ready : recorder.Ready around)
    (started : recorder.startUnit = (next, none)) :
    next.Ready around ∧ next.records = recorder.records ∧
      next.processClock = recorder.processClock := by
  obtain ⟨nextLive, alike⟩ := startUnit_alike ready.live
  have clock := startUnit_processClock recorder
  have length := PagedStore.Holds.length ready.live
  rw [started] at nextLive alike clock
  have sameRecords : next.records = recorder.records := alike.records
  refine ⟨?_, sameRecords, clock⟩
  have room : next.flushed = recorder.flushed ∧ next.store.pageBits = recorder.store.pageBits ∧
      next.unitStart ≤ recorder.records.length ∧ next.largestUnit ≤ recorder.records.length := by
    simp only [Recorder.startUnit] at started
    split at started
    · cases started
    · rename_i items counted
      split at started
      · cases started
      · rename_i store reserved
        cases started
        have bound : items ≤ recorder.records.length := by
          rw [(Checked.subtract_eq_ok_iff.1 counted).2, length]
          exact Nat.sub_le _ _
        exact ⟨rfl, PagedStore.pageBits_of_reserve reserved, Nat.le_of_eq length,
          Nat.max_le.2 ⟨ready.largestUnit, bound⟩⟩
  exact {
    live := nextLive
    healthy := alike.poisoned.trans ready.healthy
    unflushed := room.1.trans ready.unflushed
    depth := alike.depth.trans ready.depth
    fits := ready.fits
    standard := room.2.1.trans ready.standard
    unitStart := sameRecords ▸ room.2.2.1
    largestUnit := sameRecords ▸ room.2.2.2 }

/-- Room for a unit is made unless there is too much of it to be counted. -/
theorem Ready.exists_startUnit (ready : recorder.Ready around)
    (room : 3 * recorder.records.length + Width.bound 14 < Width.bound 64) :
    ∃ next, recorder.startUnit = (next, none) := by
  have length := PagedStore.Holds.length ready.live
  have items : Checked.subtract recorder.store.length recorder.unitStart =
      .ok (recorder.store.length - recorder.unitStart) :=
    Checked.subtract_eq_ok_iff.2 ⟨by rw [length]; exact ready.unitStart, rfl⟩
  have pageSize : recorder.store.pageSize = Width.bound 14 := by
    rw [PagedStore.pageSize, ready.standard]
    rfl
  have largest := ready.largestUnit
  obtain ⟨store, reserved⟩ := PagedStore.Holds.exists_reserve ready.live
    (3 * max recorder.largestUnit (recorder.store.length - recorder.unitStart))
    (by rw [pageSize, length]; omega)
  simp only [Recorder.startUnit, items]
  rw [reserved]
  exact ⟨_, rfl⟩

/-- A recorder that is at the same unit as another, with pages of the same size. -/
structure SameUnit (recorder next : Recorder) : Prop where
  flushed : next.flushed = recorder.flushed
  pageBits : next.store.pageBits = recorder.store.pageBits
  unitStart : next.unitStart = recorder.unitStart
  largestUnit : next.largestUnit = recorder.largestUnit

theorem openRecord_sameUnit {name : String} {frame : Bool} {now : Reading} {handle : Handle}
    (done : recorder.openRecord name frame now = (next, .ok handle)) : SameUnit recorder next := by
  simp only [Recorder.openRecord] at done
  split at done
  · cases done
  · rename_i store allocated
    split at done
    · cases done
    · cases done
      exact ⟨rfl, PagedStore.pageBits_of_alloc allocated, rfl, rfl⟩

theorem pop_sameUnit (recorder : Recorder) (handle : Handle) (now : Reading) :
    SameUnit recorder (recorder.pop handle now).1 := by
  rw [Recorder.pop]
  split
  · exact ⟨rfl, rfl, rfl, rfl⟩
  · split
    · exact ⟨rfl, rfl, rfl, rfl⟩
    · dsimp only
      split <;> exact ⟨rfl, rfl, rfl, rfl⟩

/-- A recorder at work is at work after a step inside its unit that loses no record. -/
theorem Ready.of_sameUnit {inside : Nat} (ready : recorder.Ready around)
    (unit : SameUnit recorder next) (live : next.Live)
    (healthy : next.poisoned = recorder.poisoned) (depth : next.depth = inside)
    (fits : inside < Width.bound 31)
    (longer : recorder.records.length ≤ next.records.length) : next.Ready inside where
  live
  healthy := healthy.trans ready.healthy
  unflushed := unit.flushed.trans ready.unflushed
  depth
  fits
  standard := unit.pageBits.trans ready.standard
  unitStart := unit.unitStart ▸ Nat.le_trans ready.unitStart longer
  largestUnit := unit.largestUnit ▸ Nat.le_trans ready.largestUnit longer

/-- What a push that succeeded did. -/
structure Opened (recorder : Recorder) (record : Record) (around : Nat) (next : Recorder)
    (handle : Handle) : Prop where
  ready : next.Ready (around + 1)
  records : next.records = recorder.records ++ [record]
  handle : handle = ⟨recorder.records.length⟩
  clock : next.processClock = recorder.processClock

theorem Ready.openRecord (ready : recorder.Ready around) {name : String} {frame : Bool}
    {now : Reading} {handle : Handle}
    (done : recorder.openRecord name frame now = (next, .ok handle)) :
    Opened recorder (recorder.opening name frame now) around next handle := by
  obtain ⟨nextLive, opens⟩ := openRecord_opens ready.live name frame now
  have clock := openRecord_processClock recorder name frame now
  rw [done] at nextLive opens clock
  cases opens with
  | opened records depth fits poisoned =>
      have longer : recorder.records.length ≤ next.records.length := by
        rw [records, List.length_append]
        exact Nat.le_add_right _ _
      have deeper : next.depth = ((around + 1 : Nat) : Int) := by
        rw [depth, ready.depth]
        rfl
      rw [deeper] at fits
      exact ⟨ready.of_sameUnit (openRecord_sameUnit done) nextLive poisoned deeper
        (Width.fitsSigned_natCast.1 fits) longer, records, rfl, clock⟩

/-- A push on a recorder at work opens an interval around what comes next. -/
theorem Ready.push (ready : recorder.Ready around) {name : String} {frame : Bool} {now : Reading}
    {handle : Handle} (done : recorder.push name frame now = (next, .ok handle)) :
    Opened recorder (recorder.opening name frame now) around next handle := by
  rw [Recorder.push] at done
  split at done
  · split at done
    · cases done
    · rename_i middle started
      obtain ⟨middleReady, sameRecords, sameClock⟩ := ready.startUnit started
      have opened := middleReady.openRecord done
      have sameRecord : middle.opening name frame now = recorder.opening name frame now := by
        rw [opening, opening, middleReady.depth, ready.depth, sameClock]
      rw [sameRecord] at opened
      exact ⟨opened.ready, sameRecords ▸ opened.records, sameRecords ▸ opened.handle,
        opened.clock.trans sameClock⟩
  · exact ready.openRecord done

theorem Ready.exists_openRecord (ready : recorder.Ready around)
    (deeper : around + 1 < Width.bound 31) (name : String) (frame : Bool) (now : Reading) :
    ∃ next handle, recorder.openRecord name frame now = (next, .ok handle) := by
  obtain ⟨store, allocated, _⟩ :=
    PagedStore.Holds.alloc ready.live (recorder.opening name frame now)
  rw [opening] at allocated
  have fits : Width.fitsSigned 32 (recorder.depth + 1) = true := by
    rw [ready.depth]
    exact Width.fitsSigned_natCast.2 deeper
  simp only [Recorder.openRecord, allocated, Checked.addSigned, fits, if_true]
  exact ⟨_, _, rfl⟩

/-- A push succeeds unless the depth or the room for a unit cannot be counted. -/
theorem Ready.exists_push (ready : recorder.Ready around) (deeper : around + 1 < Width.bound 31)
    (room : 3 * recorder.records.length + Width.bound 14 < Width.bound 64) (name : String)
    (frame : Bool) (now : Reading) :
    ∃ next handle, recorder.push name frame now = (next, .ok handle) := by
  rw [Recorder.push]
  split
  · obtain ⟨middle, started⟩ := ready.exists_startUnit room
    rw [started]
    exact (ready.startUnit started).1.exists_openRecord deeper name frame now
  · exact ready.exists_openRecord deeper name frame now

/-- What a pop of an innermost interval does. -/
structure Closed (recorder : Recorder) (slot : Nat) (now : Reading) (around : Nat)
    (next : Recorder) : Prop where
  ready : next.Ready around
  records : next.records = recorder.records.modify slot (Record.close now)
  clock : next.processClock = recorder.processClock

/-- A pop of the innermost interval closes it. -/
theorem Ready.pop (ready : recorder.Ready (around + 1)) {slot : Nat} {record : Record}
    (found : recorder.records[slot]? = some record) (level : record.level = around)
    (now : Reading) :
    ∃ next, recorder.pop ⟨slot⟩ now = (next, .ok ()) ∧ Closed recorder slot now around next := by
  obtain ⟨nextLive, closes⟩ := pop_closes ready.live ⟨slot⟩ now
  have clock := pop_processClock recorder ⟨slot⟩ now
  have unit := pop_sameUnit recorder ⟨slot⟩ now
  have shallower : recorder.depth - 1 = around := by
    rw [ready.depth]
    omega
  have fits : around < Width.bound 31 := Nat.lt_of_succ_lt ready.fits
  generalize recorder.pop ⟨slot⟩ now = outcome at nextLive closes clock unit
  obtain ⟨next, answer⟩ := outcome
  cases closes with
  | unknown missing => rw [found] at missing; cases missing
  | uncounted narrow =>
      rw [shallower, Width.fitsSigned_natCast.2 fits] at narrow
      cases narrow
  | violated _ other different =>
      rw [found] at other
      cases other
      omega
  | closed other _ records depth _ poisoned =>
      have longer : recorder.records.length ≤ next.records.length :=
        Nat.le_of_eq (by rw [records, List.length_modify])
      exact ⟨next, rfl, ready.of_sameUnit unit nextLive poisoned (depth.trans shallower) fits longer,
        records, clock⟩

/-! ## Runs -/

/-- What a run of the calls of a forest leaves behind. -/
structure Performed (recorder : Recorder) (above : List Invocation) (forest : Forest Invocation)
    (performance : Performance) : Prop where
  ready : performance.recorder.Ready above.length
  records : performance.recorder.records =
    recorder.records ++ recordsOf recorder.processClock above forest
  clock : performance.recorder.processClock = recorder.processClock
  healthy : ∀ state ∈ performance.passed, state.poisoned = false
  closings : performance.closings = List.replicate forest.size (.ok ())
  deep : above.length + forest.height < Width.bound 31

/-- The parts of a run: the first call with the calls inside it, and the calls after it. -/
theorem perform_node_eq_ok {call : Invocation} {inner later : Forest Invocation}
    {performance : Performance} (done : recorder.perform (.node call inner later) = .ok performance) :
    ∃ opened handle within rest,
      recorder.push call.name call.frame call.opened = (opened, .ok handle) ∧
      opened.perform inner = .ok within ∧
      (within.recorder.pop handle call.closed).1.perform later = .ok rest ∧
      performance = {
        recorder := rest.recorder
        passed := opened ::
          (within.passed ++ (within.recorder.pop handle call.closed).1 :: rest.passed)
        closings := within.closings ++
          (within.recorder.pop handle call.closed).2 :: rest.closings } := by
  rw [perform] at done
  obtain ⟨handle, pushed, done⟩ := bind_eq_ok_iff.1 done
  obtain ⟨within, inside, done⟩ := bind_eq_ok_iff.1 done
  obtain ⟨rest, after, done⟩ := bind_eq_ok_iff.1 done
  cases done
  exact ⟨_, handle, within, rest, Prod.ext rfl pushed, inside, after, rfl⟩

/-- A call that is over has its record among those of the calls before it and inside it. -/
theorem Opened.pop {opened : Recorder} {above : List Invocation} {call : Invocation}
    {inner : Forest Invocation} {within : Performance} {handle : Handle}
    (depth : recorder.depth = above.length)
    (pushed : Opened recorder (recorder.opening call.name call.frame call.opened) above.length
      opened handle)
    (inside : Performed opened (call :: above) inner within) :
    ∃ closed, within.recorder.pop handle call.closed = (closed, .ok ()) ∧
      closed.Ready above.length ∧ closed.processClock = recorder.processClock ∧
      closed.records = recorder.records ++ call.record recorder.processClock above.length ::
        recordsOf recorder.processClock (call :: above) inner := by
  have records := inside.records
  rw [pushed.records, pushed.clock, List.append_assoc, List.singleton_append] at records
  have found : within.recorder.records[recorder.records.length]? =
      some (recorder.opening call.name call.frame call.opened) := by
    rw [records, List.getElem?_append_right (Nat.le_refl _), Nat.sub_self]
    rfl
  obtain ⟨closed, popped, ready, closedRecords, clock⟩ :=
    inside.ready.pop found depth call.closed
  rw [records, modify_length_append] at closedRecords
  have ended : Record.close call.closed (recorder.opening call.name call.frame call.opened) =
      call.record recorder.processClock above.length := by
    rw [opening, depth]
    rfl
  rw [ended] at closedRecords
  rw [pushed.handle]
  exact ⟨closed, popped, ready, clock.trans (inside.clock.trans pushed.clock), closedRecords⟩

/-- Calls may be made after calls: what the first leave behind is what the others find. -/
theorem Performed.node {opened closed : Recorder} {above : List Invocation} {call : Invocation}
    {inner later : Forest Invocation} {within rest : Performance}
    (openedReady : opened.Ready (above.length + 1))
    (inside : Performed opened (call :: above) inner within)
    (closedReady : closed.Ready above.length)
    (clock : closed.processClock = recorder.processClock)
    (records : closed.records = recorder.records ++
      call.record recorder.processClock above.length ::
        recordsOf recorder.processClock (call :: above) inner)
    (after : Performed closed above later rest) :
    Performed recorder above (.node call inner later) {
      recorder := rest.recorder
      passed := opened :: (within.passed ++ closed :: rest.passed)
      closings := within.closings ++ .ok () :: rest.closings } where
  ready := after.ready
  records := by
    rw [recordsOf_node, after.records, records, clock]
    simp
  clock := after.clock.trans clock
  healthy := by
    intro state member
    rcases List.mem_cons.1 member with rfl | member
    · exact openedReady.healthy
    · rcases List.mem_append.1 member with inInner | member
      · exact inside.healthy state inInner
      · rcases List.mem_cons.1 member with rfl | inLater
        · exact closedReady.healthy
        · exact after.healthy state inLater
  closings := by
    have count : (Forest.node call inner later).size = inner.size + (later.size + 1) := by
      rw [Forest.size]
      omega
    rw [inside.closings, after.closings, count, List.replicate_add, List.replicate_succ]
  deep := by
    have inner := inside.deep
    have later := after.deep
    rw [List.length_cons] at inner
    rw [Forest.height]
    omega

/-- A run of the calls of a forest records all of them, closes each of them and never finds a
violation. -/
theorem Ready.perform {above : List Invocation} {forest : Forest Invocation}
    {performance : Performance} (ready : recorder.Ready above.length)
    (done : recorder.perform forest = .ok performance) :
    Performed recorder above forest performance := by
  induction forest generalizing recorder above performance with
  | nil =>
      cases done
      exact ⟨ready, by simp [recordsOf, Forest.ancestry], rfl, by simp, rfl, ready.fits⟩
  | node call inner later innerHypothesis laterHypothesis =>
      obtain ⟨opened, handle, within, rest, pushed, inside, after, rfl⟩ := perform_node_eq_ok done
      have push := ready.push pushed
      have insidePerformed := @innerHypothesis _ (call :: above) _ push.ready inside
      obtain ⟨closed, popped, closedReady, clock, records⟩ := push.pop ready.depth insidePerformed
      rw [popped] at after ⊢
      exact .node push.ready insidePerformed closedReady clock records
        (laterHypothesis closedReady after)

/-- A run comes to its end unless its depth or its calls cannot be counted. -/
theorem Ready.exists_perform {above : List Invocation} {forest : Forest Invocation}
    (ready : recorder.Ready above.length)
    (deep : above.length + forest.height < Width.bound 31)
    (room : 3 * (recorder.records.length + forest.size) + Width.bound 14 < Width.bound 64) :
    ∃ performance, recorder.perform forest = .ok performance := by
  induction forest generalizing recorder above with
  | nil => exact ⟨_, rfl⟩
  | node call inner later innerHypothesis laterHypothesis =>
      rw [Forest.height] at deep
      rw [Forest.size] at room
      obtain ⟨opened, handle, pushed⟩ := ready.exists_push (by omega) (by omega) call.name call.frame
        call.opened
      have push := ready.push pushed
      obtain ⟨within, inside⟩ := @innerHypothesis opened (call :: above) push.ready
        (by rw [List.length_cons]; omega)
        (by rw [push.records, List.length_append, List.length_singleton]; omega)
      have insidePerformed := @Ready.perform opened (call :: above) inner within push.ready inside
      obtain ⟨closed, popped, closedReady, _, records⟩ := push.pop ready.depth insidePerformed
      obtain ⟨rest, after⟩ := laterHypothesis closedReady (by omega) (by
        rw [records, List.length_append, List.length_cons, length_recordsOf]
        omega)
      simp only [Recorder.perform, pushed, inside, popped, after, bind, Except.bind]
      exact ⟨_, rfl⟩

end Recorder

end Capture

end CallProfiler
