import CallProfiler.Capture.Diagnostic
import CallProfiler.Capture.PagedStore
import CallProfiler.Event

/-!
# Recorders

A recorder belongs to one thread. Opening an interval stores a record and returns its slot as
the handle; closing the innermost interval completes its record. Closing any other interval is
a violation and poisons the recorder. A flush hands off the completed records once, unless the
recorder is poisoned. Clock readings come from outside, so every step is a function of the
state before it.
-/

namespace CallProfiler.Capture

/-- Both clocks at one moment, in nanoseconds. -/
structure Reading where
  wall : UInt64
  cpu : UInt64
deriving DecidableEq, Repr

/-- An interval as it is being recorded. -/
structure Record where
  name : String
  level : Int
  frame : Bool
  processClock : Bool
  start : Reading
  stop : Reading
  complete : Bool
deriving DecidableEq, Repr

namespace Record

/-- The event of a completed record. Clocks that run backwards count as standing still. -/
def toEvent (record : Record) : Event where
  name := record.name
  level := .ofInt record.level
  frame := record.frame
  processClock := record.processClock
  start := record.start.wall
  stop := max record.stop.wall record.start.wall
  cpu := if record.start.cpu ≤ record.stop.cpu then record.stop.cpu - record.start.cpu else 0

end Record

/-- A reference to an interval: the slot of its record. -/
structure Handle where
  slot : Nat
deriving DecidableEq, Repr

/-- The recorder of one thread. -/
structure Recorder where
  store : PagedStore Record
  processClock : Bool
  /-- Intervals open now. -/
  depth : Int
  /-- Records there were when the latest outermost interval was opened. -/
  unitStart : Nat
  /-- The most records that an outermost interval has brought so far. -/
  largestUnit : Nat
  poisoned : Bool
  flushed : Bool
deriving Repr

namespace Recorder

/-- A recorder that has recorded nothing. -/
def new (processClock : Bool) : Recorder where
  store := .new
  processClock
  depth := 0
  unitStart := 0
  largestUnit := 0
  poisoned := false
  flushed := false

/-- At an outermost interval, make room for three times the largest unit so far. -/
def startUnit (recorder : Recorder) : Recorder × Option Fault :=
  match Checked.subtract recorder.store.length recorder.unitStart with
  | .error reached => (recorder, some reached)
  | .ok items =>
    let recorder := { recorder with
      largestUnit := max recorder.largestUnit items
      unitStart := recorder.store.length }
    match recorder.store.reserve (3 * recorder.largestUnit) with
    | .error reached => (recorder, some reached)
    | .ok store => ({ recorder with store }, none)

/-- Store the record of an interval and go one level deeper. -/
def openRecord (recorder : Recorder) (name : String) (frame : Bool) (now : Reading) :
    Recorder × Except Fault Handle :=
  let record : Record :=
    ⟨name, recorder.depth, frame, recorder.processClock, now, ⟨0, 0⟩, false⟩
  match recorder.store.alloc record with
  | .error reached => (recorder, .error reached)
  | .ok store =>
    let handle : Handle := ⟨recorder.store.length⟩
    match Checked.addSigned 32 recorder.depth 1 with
    | .error reached => ({ recorder with store }, .error reached)
    | .ok depth => ({ recorder with store, depth }, .ok handle)

/-- Open an interval. -/
def push (recorder : Recorder) (name : String) (frame : Bool) (now : Reading) :
    Recorder × Except Fault Handle :=
  if recorder.depth = 0 then
    match recorder.startUnit with
    | (recorder, some reached) => (recorder, .error reached)
    | (recorder, none) => recorder.openRecord name frame now
  else recorder.openRecord name frame now

/-- The intervals open now, seen from the closing of one of them. -/
def diagnose (recorder : Recorder) (exit : Record) : Diagnostic where
  openIntervals :=
    (recorder.store.toList.filter fun record => !record.complete).map fun record =>
      ⟨record.name, record.level, record.level == exit.level && record.name == exit.name⟩
  exitName := exit.name
  exitLevel := exit.level
  currentLevel := recorder.depth

/-- Close an interval. -/
def pop (recorder : Recorder) (handle : Handle) (now : Reading) :
    Recorder × Except (Stop CaptureError) Unit :=
  match recorder.store.get? handle.slot with
  | none => (recorder, refuse (.invalidHandle handle.slot))
  | some record =>
    match Checked.subtractSigned 32 recorder.depth 1 with
    | .error reached => (recorder, .error (.fault reached))
    | .ok depth =>
      let recorder := { recorder with depth }
      if record.level ≠ depth then
        ({ recorder with poisoned := true }, refuse (.stackMismatch (recorder.diagnose record)))
      else
        let store := recorder.store.modify handle.slot fun record =>
          { record with stop := now, complete := true }
        ({ recorder with store }, .ok ())

/-- Empty the recorder. The first flush of a recorder that is not poisoned hands off the events
of its completed records, if there are any. -/
def flush (recorder : Recorder) : Recorder × Option (List Event) :=
  if recorder.flushed then (recorder, none)
  else
    let (store, records) := recorder.store.drain
    let events := (records.filter (·.complete)).map Record.toEvent
    let handedOff := if recorder.poisoned || events.isEmpty then none else some events
    ({ recorder with store, flushed := true }, handedOff)

end Recorder

end CallProfiler.Capture
