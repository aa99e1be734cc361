import CallProfiler.EventLog
import CallProfiler.Log.Format
import CallProfiler.Text.Numeral
import CallProfiler.Width

/-!
# Reading event logs

A log is read line by line. `Reader` holds what the lines so far established; it starts afresh
with every log. `Decoder` outlives logs, but all that it keeps is which names it has met: what a
log decodes to does not depend on it. A line is read word by word from the left, so the first
wrong word decides the refusal, and words after the last one needed are ignored.
-/

namespace CallProfiler.Log

open CallProfiler.Text

/-- A line of input: its characters, or nothing where its bytes are not Unicode text. -/
abbrev Line := Option (List Char)

/-- The lines of a text. -/
def linesOfText (text : List Char) : List Line := (lines text).map some

/-- The lines of a sequence of bytes. -/
def linesOfBytes (bytes : List UInt8) : List Line :=
  (bytes.splitOnP fun byte => byte == 10).map fun line =>
    (String.fromUTF8? line.toByteArray).map (·.toList)

/-- Reading words from the left, up to the first wrong one. -/
abbrev Words := StateT (List (List Char)) (Except LineProblem)

namespace Words

/-- The next word. -/
def next (field : Field) : Words (List Char) := fun words =>
  match words with
  | [] => .error (.missing field)
  | word :: rest => .ok (word, rest)

/-- A word as a number of the field's range. -/
def interpret {α : Type} (field : Field)
    (read : List Char → Except NumeralProblem α) (word : List Char) : Except LineProblem α :=
  (read word).mapError fun _ => .invalid field word

/-- The next word as an unsigned number of `width` bits. -/
def unsigned (width : Nat) (field : Field) : Words Nat := do
  let word ← next field
  interpret field (readNat 10 width) word

/-- The next word as a signed number of `width` bits. -/
def signed (width : Nat) (field : Field) : Words Int := do
  let word ← next field
  interpret field (readInt width) word

/-- The next word as a flag: a number of eight bits that is zero or one. -/
def flag (field : Field) : Words Bool := do
  match ← unsigned 8 field with
  | 0 => return false
  | 1 => return true
  | value => throw (.invalidFlag field value)

/-- The next word, if there is one, as an unsigned number of `width` bits. -/
def optionalUnsigned (width : Nat) (field : Field) : Words (Option Nat) := fun words =>
  match words with
  | [] => .ok (none, [])
  | word :: rest => do
    let value ← interpret field (readNat 10 width) word
    return (some value, rest)

end Words

/-- The section that event lines belong to. -/
structure Section where
  id : UInt32
  /-- Start of the latest event, in ticks. -/
  cursor : Int
deriving DecidableEq, Repr

/-- What the lines of a log have established so far. -/
structure Reader where
  names : NameFormat
  calibration : Option Calibration
  tick : Nat
  processClock : Bool
  /-- Table entries, the latest first. -/
  nameTable : List (UInt32 × String)
  current : Option Section
  /-- Threads of the sections opened, the latest first. -/
  opened : List UInt32
  /-- Events with their threads, the latest first. -/
  events : List (UInt32 × Event)

namespace Reader

/-- A reader at the start of a log. -/
def start : Reader where
  names := .inlineNames
  calibration := none
  tick := 1
  processClock := false
  nameTable := []
  current := none
  opened := []
  events := []

/-- Read the words of a format line. -/
def readFormat (reader : Reader) : Words Reader := do
  match ← Words.unsigned 32 .format with
  | 0 => return { reader with names := .inlineNames }
  | 1 => return { reader with names := .nameTable }
  | version => throw (.unsupportedFormat version)

/-- Read the words of a properties line. -/
def readProperties (reader : Reader) : Words Reader := do
  let samples ← Words.unsigned 32 .sampleCount
  let selfTime ← Words.unsigned 64 .selfOverhead
  let childrenTime ← Words.unsigned 64 .childrenOverhead
  let coarse ← Words.flag .timeResolution
  let processClock ← Words.flag .clockKind
  return { reader with
    calibration := some ⟨.ofNat samples, .ofNat selfTime, .ofNat childrenTime⟩
    tick := tickLength coarse
    processClock }

/-- Read the words of a name line: an id and its name. -/
def readName : Words (UInt32 × String) := do
  let id ← Words.unsigned 32 .nameId
  let name ← Words.next .name
  return (.ofNat id, .ofList name)

/-- Read the words of a thread line. -/
def readThread (reader : Reader) : Words Reader := do
  let id ← Words.unsigned 32 .threadId
  let base ← Words.signed 64 .baseTime
  if base < 0 ∨ Width.bound 64 ≤ base.toNat * reader.tick then throw .baseOutOfRange
  return { reader with
    current := some ⟨.ofNat id, base⟩
    opened := .ofNat id :: reader.opened }

/-- The words of an event line up to its name. -/
structure EventHead where
  frame : Bool
  level : Int
  name : String
deriving DecidableEq, Repr

/-- Read the words of an event line up to its name. -/
def readEventHead (reader : Reader) : Words EventHead := do
  let frame ← Words.flag .frameFlag
  let level ← Words.signed 32 .stackLevel
  match reader.names with
  | .inlineNames =>
    let name ← Words.next .name
    return ⟨frame, level, .ofList name⟩
  | .nameTable =>
    let id ← Words.unsigned 32 .nameId
    match reader.nameTable.lookup (.ofNat id) with
    | some name => return ⟨frame, level, name⟩
    | none => throw (.unknownNameId (.ofNat id))

/-- Read the words of an event line after its name, and place the event on the timeline. -/
def readEventTail (reader : Reader) (place : Section) (head : EventHead) : Words Reader := do
  let delta ← Words.signed 64 .timeDelta
  let duration ← Words.unsigned 64 .duration
  let cpu ← Words.optionalUnsigned 64 .cpuTime
  let cursor := place.cursor + delta
  if !Width.fitsSigned 64 cursor then throw .timestampOverflow
  if cursor < 0 then throw .beforeTimeZero
  let start := cursor.toNat * reader.tick
  let stop := start + duration * reader.tick
  if Width.bound 64 ≤ stop then throw .timestampOverflow
  let event : Event := {
    name := head.name
    level := .ofInt head.level
    frame := head.frame
    processClock := reader.processClock
    start := .ofNat start
    stop := .ofNat stop
    cpu := .ofNat (cpu.getD 0) }
  return { reader with
    current := some { place with cursor }
    events := (place.id, event) :: reader.events }

/-- What a line did: the name that it brought up, if any, and the reader after it. -/
structure LineResult where
  mentioned : Option String
  outcome : Except LineProblem Reader

/-- Read the words of an event line. -/
def readEvent (reader : Reader) (words : List (List Char)) : LineResult :=
  match reader.current with
  | none => ⟨none, .error .outsideSection⟩
  | some place =>
    match reader.readEventHead words with
    | .error problem => ⟨none, .error problem⟩
    | .ok (head, rest) =>
      let mentioned := if reader.names = .inlineNames then some head.name else none
      ⟨mentioned, (reader.readEventTail place head rest).map (·.1)⟩

/-- Read a line by its words. -/
def readWords (reader : Reader) : List (List Char) → LineResult
  | [] => ⟨none, .ok reader⟩
  | mark :: words =>
    if mark = formatMark then ⟨none, (reader.readFormat words).map (·.1)⟩
    else if mark = propertiesMark then ⟨none, (reader.readProperties words).map (·.1)⟩
    else if mark = nameMark then
      match readName words with
      | .error problem => ⟨none, .error problem⟩
      | .ok (entry, _) =>
        ⟨some entry.2, .ok { reader with nameTable := entry :: reader.nameTable }⟩
    else if mark = threadMark then ⟨none, (reader.readThread words).map (·.1)⟩
    else if mark = eventMark then reader.readEvent words
    else ⟨none, .error (.unknownLine mark)⟩

/-- Read a line. -/
def readLine (reader : Reader) : Line → LineResult
  | none => ⟨none, .error .notUnicode⟩
  | some text => reader.readWords (words text)

/-- The log of a reader at the end of its lines. -/
def toLog (reader : Reader) : Except DecodeError EventLog :=
  match reader.calibration with
  | none => .error .missingHeader
  | some calibration =>
    let events := reader.events.reverse
    let threads := reader.opened.foldr (fun id (table : ThreadTable) =>
      if (table.events? id).isSome then table
      else table.insert id ((events.filter (·.1 == id)).map (·.2))) ThreadTable.empty
    .ok { calibration, threads }

end Reader

/-- What outlives the reading of a log: the names met so far, each once. -/
structure Decoder where
  names : List String
  distinct : names.Nodup

namespace Decoder

/-- A decoder that has met no name. -/
def fresh : Decoder := ⟨[], .nil⟩

/-- The decoder after meeting a name. -/
def intern (decoder : Decoder) (name : String) : Decoder :=
  if known : name ∈ decoder.names then decoder
  else ⟨name :: decoder.names, List.nodup_cons.2 ⟨known, decoder.distinct⟩⟩

/-- The number of distinct names met. -/
def size (decoder : Decoder) : Nat := decoder.names.length

/-- Read lines, the first of which has this number, up to the first wrong one. -/
def readLines (decoder : Decoder) (reader : Reader) (number : Nat) :
    List Line → Decoder × Except DecodeError Reader
  | [] => (decoder, .ok reader)
  | line :: rest =>
    let result := reader.readLine line
    let decoder := result.mentioned.elim decoder decoder.intern
    match result.outcome with
    | .error problem => (decoder, .error (.badLine number problem))
    | .ok reader => readLines decoder reader (number + 1) rest

/-- Decode a log. -/
def decode (decoder : Decoder) (input : List Line) : Decoder × Except DecodeError EventLog :=
  let (decoder, outcome) := decoder.readLines .start 1 input
  (decoder, outcome.bind Reader.toLog)

end Decoder

/-- Decode a log that stands alone. -/
def decode (input : List Line) : Except DecodeError EventLog := (Decoder.fresh.decode input).2

end CallProfiler.Log
