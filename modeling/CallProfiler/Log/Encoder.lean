import CallProfiler.EventLog
import CallProfiler.Fault
import CallProfiler.Log.Format
import CallProfiler.Text.Column

/-!
# Writing event logs

A log is written as lines: the format, the properties, the name table, then a section for each
thread that has events. An event is written relative to the event before it, in whole ticks.
Lines before an invalid name or a fault count as written.
-/

namespace CallProfiler.Log

open CallProfiler.Text

/-- The choices that a writer has. -/
structure EncodeOptions where
  names : NameFormat
  /-- Write ticks of a hundred nanoseconds; finer differences are lost. -/
  coarse : Bool
  /-- Write each event's CPU time. -/
  cpu : Bool
deriving DecidableEq, Repr

/-- What a log is written with if nothing else is asked for. -/
def EncodeOptions.standard : EncodeOptions := ⟨.nameTable, false, true⟩

/-- Lines written so far, and how the writing ended. -/
structure Encoding where
  lines : List (List Char)
  outcome : Except (Stop InvalidName) Unit

namespace Encoding

/-- Go on writing after lines, if they ended well. -/
def andThen (first second : Encoding) : Encoding :=
  match first.outcome with
  | .ok () => ⟨first.lines ++ second.lines, second.outcome⟩
  | .error stop => ⟨first.lines, .error stop⟩

/-- The text of the lines. -/
def text (encoding : Encoding) : List Char :=
  encoding.lines.flatMap fun line => line ++ ['\n']

/-- The whole text, if the writing ended well. -/
def toText (encoding : Encoding) : Except (Stop InvalidName) (List Char) :=
  encoding.outcome.map fun _ => encoding.text

end Encoding

/-- A line of words with single spaces between them. -/
def spaced (fields : List (List Char)) : List Char := [' '].intercalate fields

/-- A time in whole ticks, as a signed number of 64 bits. -/
def ticks (tick : Nat) (time : UInt64) : Int :=
  let whole := time.toNat / tick
  if whole < Width.bound 63 then whole else whole - (Width.bound 64 : Int)

/-- The lines before the names. -/
def headerLines (options : EncodeOptions) (log : EventLog) : List (List Char) :=
  let calibration := log.calibration
  let processClock := log.threads.allEvents.any (·.processClock)
  [spaced [formatMark, decimal options.names.version],
   spaced [propertiesMark, decimal calibration.samples.toNat,
     decimal calibration.selfTime.toNat, decimal calibration.childrenTime.toNat,
     flagDigit options.coarse, flagDigit processClock]]

/-- The line of a table entry. -/
def nameLine (id : Nat) (name : String) : List Char :=
  spaced [nameMark, flushRight 3 (decimal id), name.toList]

/-- Check the names of events, and write a line for each new one if there is a table. The
result also holds the table, its names in the order of their ids. -/
def encodeNames (format : NameFormat) (table : List String) :
    List Event → Encoding × List String
  | [] => (⟨[], .ok ()⟩, table)
  | event :: rest =>
    if !isWord event.name.toList then (⟨[], refuse ⟨event.name⟩⟩, table)
    else if format = .nameTable ∧ event.name ∉ table then
      let (encoding, grown) := encodeNames format (table ++ [event.name]) rest
      (⟨nameLine table.length event.name :: encoding.lines, encoding.outcome⟩, grown)
    else encodeNames format table rest

/-- How an event line refers to a name. -/
def nameField (format : NameFormat) (table : List String) (name : String) : List Char :=
  match format with
  | .inlineNames => name.toList
  | .nameTable => decimal (table.idxOf name)

/-- The line of an event, `cursor` being the start of the event before it. -/
def eventLine (options : EncodeOptions) (table : List String) (cursor : Int) (event : Event) :
    Except Fault (List Char) := do
  let tick := tickLength options.coarse
  let delta ← Checked.subtractSigned 64 (ticks tick event.start) cursor
  let duration ← Checked.subtractSigned 64 (ticks tick event.stop) (ticks tick event.start)
  let cpu := if options.cpu then [decimal event.cpu.toNat] else []
  return spaced ([eventMark, flagDigit event.frame, signedDecimal event.level.toInt,
    nameField options.names table event.name, signedDecimal delta, signedDecimal duration] ++ cpu)

/-- The lines of a section's events. -/
def encodeEvents (options : EncodeOptions) (table : List String) (cursor : Int) :
    List Event → Encoding
  | [] => ⟨[], .ok ()⟩
  | event :: rest =>
    match eventLine options table cursor event with
    | .error reached => ⟨[], .error (.fault reached)⟩
    | .ok line =>
      let later := encodeEvents options table
        (ticks (tickLength options.coarse) event.start) rest
      ⟨line :: later.lines, later.outcome⟩

/-- The section of one thread; a thread without events has none. -/
def encodeSection (options : EncodeOptions) (table : List String) (id : UInt32)
    (events : List Event) : Encoding :=
  match events with
  | [] => ⟨[], .ok ()⟩
  | first :: _ =>
    let base := ticks (tickLength options.coarse) first.start
    let opening :=
      spaced [threadMark, flushRight 3 (decimal id.toNat), signedDecimal base]
    Encoding.andThen ⟨[opening], .ok ()⟩ (encodeEvents options table base events)

/-- The sections of all threads. -/
def encodeSections (options : EncodeOptions) (table : List String) :
    List (UInt32 × List Event) → Encoding
  | [] => ⟨[], .ok ()⟩
  | (id, events) :: rest =>
    (encodeSection options table id events).andThen (encodeSections options table rest)

/-- Write a log. -/
def encode (options : EncodeOptions) (log : EventLog) : Encoding :=
  let (names, table) := encodeNames options.names [] log.threads.allEvents
  (Encoding.andThen ⟨headerLines options log, .ok ()⟩ names).andThen
    (encodeSections options table log.threads.entries)

end CallProfiler.Log
