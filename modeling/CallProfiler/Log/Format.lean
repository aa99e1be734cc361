import CallProfiler.Log.Error
import CallProfiler.Text.Blank

/-!
# The event log format

An event log is a text of lines, each of blank-separated words:

* `F: version` chooses how event lines name their events, and
  `P: samples self children coarse processClock` gives the properties of the run.
* `N: id name` puts a name into the table.
* `T: thread base` opens a section of a thread; the section's cursor starts at the base.
* `E: frame level name delta duration [cpu]` is an event. It starts `delta` ticks after the
  cursor, which then moves to that start.

A tick is one nanosecond, or a hundred where the run is declared coarse.
-/

namespace CallProfiler.Log

/-- How event lines refer to names. -/
inductive NameFormat where
  /-- Every event line carries its name. -/
  | inlineNames
  /-- Event lines carry ids of a table. -/
  | nameTable
deriving DecidableEq, Repr

/-- The version number of a name format. -/
def NameFormat.version : NameFormat → Nat
  | .inlineNames => 0
  | .nameTable => 1

/-- Nanoseconds in a tick. -/
def tickLength (coarse : Bool) : Nat := if coarse then 100 else 1

def formatMark : List Char := ['F', ':']
def propertiesMark : List Char := ['P', ':']
def nameMark : List Char := ['N', ':']
def threadMark : List Char := ['T', ':']
def eventMark : List Char := ['E', ':']

/-- The digit of a flag. -/
def flagDigit (flag : Bool) : List Char := if flag then ['1'] else ['0']

end CallProfiler.Log
