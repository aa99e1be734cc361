import CallProfiler.Width

/-!
# Events

An event is one finished interval: a named piece of work on one thread, between an opening and
a closing. Its level is the number of intervals that were open around it.
-/

namespace CallProfiler

/-- A finished interval of one thread. Times are nanoseconds since the capture began. -/
structure Event where
  name : String
  /-- Nesting depth at the moment of opening; the outermost intervals have level zero. -/
  level : Int32
  /-- The interval is one frame, the unit that the application repeats. -/
  frame : Bool
  /-- CPU time was read from the clock of the process, not of the thread. -/
  processClock : Bool
  start : UInt64
  stop : UInt64
  /-- CPU time spent inside the interval; zero where none was measured. -/
  cpu : UInt64
deriving DecidableEq, Repr

namespace Event

/-- Elapsed time; an interval that ends before it begins lasts no time. -/
def duration (event : Event) : Nat := event.stop.toNat - event.start.toNat

/-- Equality of everything that an event log keeps apart from clocks and CPU time. -/
def sameInterval (left right : Event) : Bool :=
  left.name == right.name && left.level == right.level && left.frame == right.frame &&
    left.start == right.start && left.stop == right.stop

theorem duration_lt (event : Event) : event.duration < Width.bound 64 := by
  have bound := event.stop.toNat_lt
  simp only [duration, Width.bound]
  omega

end Event

end CallProfiler
