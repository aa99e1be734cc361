import CallProfiler.Log.Decoder
import CallProfiler.Proofs.Text.Denotation
import Mathlib.Algebra.Ring.Int.Defs

/-!
# What event logs state

A line that is not blank makes a statement. `Says` is the form of statements, word by word, and
`Statement.Allowed` is what a statement needs of those before it; `Follows` says that all lines of
a log make statements that are allowed. `Recorded` and `Tells` say what the statements of a log
amount to. Statements before another one are listed latest first, so the first of a kind is the
one in force. No reading takes part in any of this, and no number wraps or is cut off: times are
whole numbers of any size, until an event holds them.
-/

namespace CallProfiler.Log

open CallProfiler.Text

/-! ## Statements -/

/-- How an event line calls its event. -/
inductive Label where
  | inline (name : String)
  | entry (id : UInt32)
deriving DecidableEq, Repr

/-- What an event line says. -/
structure EventLine where
  frame : Bool
  level : Int32
  label : Label
  /-- Ticks from the event before to this one. -/
  delta : Int64
  /-- Ticks that the event lasts. -/
  duration : UInt64
  cpu : UInt64
deriving DecidableEq, Repr

/-- What a line says. -/
inductive Statement where
  | format (names : NameFormat)
  | properties (calibration : Calibration) (coarse processClock : Bool)
  | name (id : UInt32) (name : String)
  | thread (id : UInt32) (base : Int64)
  | event (line : EventLine)
deriving DecidableEq, Repr

/-- Which word calls an event what, in a format. -/
inductive Label.Says : NameFormat → List Char → Label → Prop
  | inline (word : List Char) : Says .inlineNames word (.inline (.ofList word))
  | entry {word : List Char} {id : UInt32} (numeral : Unsigned word id.toNat) :
      Says .nameTable word (.entry id)

/-- CPU time at the end of an event line, where it may be missing. -/
inductive SaysCpu : List (List Char) → UInt64 → Prop
  | absent : SaysCpu [] 0
  | present {word : List Char} {extra : List (List Char)} {cpu : UInt64}
      (numeral : Unsigned word cpu.toNat) : SaysCpu (word :: extra) cpu

/-- Which words make which statement, where this name format is in force. Words after those of
the statement are left out of account. -/
inductive Says (names : NameFormat) : List (List Char) → Statement → Prop
  | format {version : List Char} {stated : NameFormat} {extra : List (List Char)}
      (numeral : Unsigned version stated.version) :
      Says names (formatMark :: version :: extra) (.format stated)
  | properties {samples selfTime childrenTime resolution clock : List Char}
      {calibration : Calibration} {coarse processClock : Bool} {extra : List (List Char)}
      (samplesNumeral : Unsigned samples calibration.samples.toNat)
      (selfNumeral : Unsigned selfTime calibration.selfTime.toNat)
      (childrenNumeral : Unsigned childrenTime calibration.childrenTime.toNat)
      (coarseFlag : Unsigned resolution coarse.toNat)
      (clockFlag : Unsigned clock processClock.toNat) :
      Says names
        (propertiesMark :: samples :: selfTime :: childrenTime :: resolution :: clock :: extra)
        (.properties calibration coarse processClock)
  | name {idWord word : List Char} {id : UInt32} {extra : List (List Char)}
      (numeral : Unsigned idWord id.toNat) :
      Says names (nameMark :: idWord :: word :: extra) (.name id (.ofList word))
  | thread {idWord baseWord : List Char} {id : UInt32} {base : Int64} {extra : List (List Char)}
      (idNumeral : Unsigned idWord id.toNat) (baseNumeral : Signed baseWord base.toInt) :
      Says names (threadMark :: idWord :: baseWord :: extra) (.thread id base)
  | event {frame level label delta duration : List Char} {rest : List (List Char)}
      {line : EventLine} (frameFlag : Unsigned frame line.frame.toNat)
      (levelNumeral : Signed level line.level.toInt) (labelled : line.label.Says names label)
      (deltaNumeral : Signed delta line.delta.toInt)
      (durationNumeral : Unsigned duration line.duration.toNat)
      (cpuTime : SaysCpu rest line.cpu) :
      Says names (eventMark :: frame :: level :: label :: delta :: duration :: rest) (.event line)

/-! ## What is in force after some statements -/

/-- The name format; without a statement of one, events carry their names. -/
def formatIn (earlier : List Statement) : NameFormat :=
  (earlier.findSome? fun
    | .format names => some names
    | _ => none).getD .inlineNames

/-- The properties of the run: its calibration, whether its ticks are coarse, and whether its
CPU times are those of the process. -/
def propertiesIn? (earlier : List Statement) : Option (Calibration × Bool × Bool) :=
  earlier.findSome? fun
    | .properties calibration coarse processClock => some (calibration, coarse, processClock)
    | _ => none

/-- Nanoseconds in a tick. -/
def tickIn (earlier : List Statement) : Nat :=
  ((propertiesIn? earlier).map fun (_, coarse, _) => tickLength coarse).getD 1

/-- Whether CPU times are those of the process. -/
def clockIn (earlier : List Statement) : Bool :=
  ((propertiesIn? earlier).map fun (_, _, processClock) => processClock).getD false

/-- The names of the table, the latest first. -/
def namesIn (earlier : List Statement) : List (UInt32 × String) :=
  earlier.filterMap fun
    | .name id name => some (id, name)
    | _ => none

/-- The name that a label stands for: its own, or the latest of its id in the table. -/
def Label.name? (table : List (UInt32 × String)) : Label → Option String
  | .inline name => some name
  | .entry id => table.lookup id

/-- The threads of the sections opened, the latest first. -/
def openedIn (earlier : List Statement) : List UInt32 :=
  earlier.filterMap fun
    | .thread id _ => some id
    | _ => none

/-- A section as it stands: its thread, its base, and the deltas of its events, the latest
first. -/
structure OpenSection where
  id : UInt32
  base : Int
  deltas : List Int

/-- The time that a section has come to, in ticks. -/
def OpenSection.cursor (place : OpenSection) : Int := place.base + place.deltas.sum

/-- A section after one more event. -/
def OpenSection.advance (place : OpenSection) (delta : Int) : OpenSection :=
  { place with deltas := delta :: place.deltas }

/-- The section that event lines belong to. -/
def sectionIn? : List Statement → Option OpenSection
  | [] => none
  | .thread id base :: _ => some ⟨id, base.toInt, []⟩
  | .event line :: earlier => (sectionIn? earlier).map (·.advance line.delta.toInt)
  | _ :: earlier => sectionIn? earlier

/-! ## Statements that are allowed -/

/-- An event line is allowed in a section, by a name that is known, at a time that a signed number
holds in ticks, and where the event ends at a time that an unsigned number holds in nanoseconds. -/
structure EventLine.Allowed (line : EventLine) (earlier : List Statement)
    (place : OpenSection) : Prop where
  inSection : sectionIn? (.event line :: earlier) = some place
  named : ∃ name, line.label.name? (namesIn earlier) = some name
  notNegative : 0 ≤ place.cursor
  inTime : place.cursor < Width.bound 63
  fits : tickIn earlier * place.cursor + tickIn earlier * line.duration.toNat < Width.bound 64

/-- What statements need of those before them. -/
def Statement.Allowed (earlier : List Statement) : Statement → Prop
  | .thread _ base => 0 ≤ base.toInt ∧ base.toInt * tickIn earlier < Width.bound 64
  | .event line => ∃ place, line.Allowed earlier place
  | _ => True

/-- All lines are text, and each is blank or makes a statement that is allowed. Together with the
statements before the lines, theirs are those at the end. -/
inductive Follows : List Statement → List Line → List Statement → Prop
  | done {earlier : List Statement} : Follows earlier [] earlier
  | blank {earlier statements : List Statement} {text : List Char} {rest : List Line}
      (blank : words text = []) (later : Follows earlier rest statements) :
      Follows earlier (some text :: rest) statements
  | stated {earlier statements : List Statement} {text : List Char} {rest : List Line}
      {statement : Statement} (form : Says (formatIn earlier) (words text) statement)
      (allowed : statement.Allowed earlier) (later : Follows (statement :: earlier) rest statements) :
      Follows earlier (some text :: rest) statements

/-! ## What statements amount to -/

/-- The event of an event line: it starts at the time that its section has come to with it. -/
structure EventLine.Describes (line : EventLine) (earlier : List Statement) (place : OpenSection)
    (event : Event) : Prop where
  name : line.label.name? (namesIn earlier) = some event.name
  level : event.level = line.level
  frame : event.frame = line.frame
  processClock : event.processClock = clockIn earlier
  start : (event.start.toNat : Int) = tickIn earlier * place.cursor
  stop : (event.stop.toNat : Int) =
    tickIn earlier * place.cursor + tickIn earlier * line.duration.toNat
  cpu : event.cpu = line.cpu

/-- The events of some statements with their threads, the latest first. -/
inductive Recorded : List Statement → List (UInt32 × Event) → Prop
  | nothing : Recorded [] []
  | other {earlier : List Statement} {events : List (UInt32 × Event)} {statement : Statement}
      (recorded : Recorded earlier events) (other : ∀ line, statement ≠ .event line) :
      Recorded (statement :: earlier) events
  | event {earlier : List Statement} {events : List (UInt32 × Event)} {line : EventLine}
      {place : OpenSection} {event : Event} (recorded : Recorded earlier events)
      (inSection : sectionIn? (.event line :: earlier) = some place)
      (describes : line.Describes earlier place event) :
      Recorded (.event line :: earlier) ((place.id, event) :: events)

/-- The log of some statements: the calibration is the latest one, and the threads are those of
which a section was opened, each with all events of its sections, in the order of the lines. -/
structure Tells (statements : List Statement) (events : List (UInt32 × Event))
    (log : EventLog) : Prop where
  recorded : Recorded statements events
  calibration : ∃ coarse processClock,
    propertiesIn? statements = some (log.calibration, coarse, processClock)
  threads : ∀ id, log.threads.events? id =
    if id ∈ openedIn statements then some ((events.reverse.filter (·.1 == id)).map (·.2)) else none

end CallProfiler.Log
