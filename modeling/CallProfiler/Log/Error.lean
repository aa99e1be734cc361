import CallProfiler.Text.Quoted

/-!
# Refusals of an event log

What can be wrong with a line of an event log, with the log as a whole, or with a log that is
to be written. A refusal names the first line that is wrong.
-/

namespace CallProfiler.Log

/-- The fields of the line formats. -/
inductive Field where
  | format
  | sampleCount
  | selfOverhead
  | childrenOverhead
  | timeResolution
  | clockKind
  | nameId
  | name
  | threadId
  | baseTime
  | frameFlag
  | stackLevel
  | timeDelta
  | duration
  | cpuTime
deriving DecidableEq, Repr

/-- How messages call a field. -/
def Field.label : Field → String
  | .format => "format"
  | .sampleCount => "sample count"
  | .selfOverhead => "self overhead"
  | .childrenOverhead => "children overhead"
  | .timeResolution => "time resolution"
  | .clockKind => "clock kind"
  | .nameId => "name id"
  | .name => "name"
  | .threadId => "thread id"
  | .baseTime => "base time"
  | .frameFlag => "frame flag"
  | .stackLevel => "stack level"
  | .timeDelta => "time delta"
  | .duration => "duration"
  | .cpuTime => "cpu time"

/-- What is wrong with a line. -/
inductive LineProblem where
  | notUnicode
  | unknownLine (word : List Char)
  | missing (field : Field)
  | invalid (field : Field) (word : List Char)
  /-- A flag is a number other than zero and one. -/
  | invalidFlag (field : Field) (value : Nat)
  | unsupportedFormat (version : Nat)
  | baseOutOfRange
  | outsideSection
  | timestampOverflow
  | beforeTimeZero
  | unknownNameId (id : UInt32)
deriving DecidableEq, Repr

/-- The wording of a line problem. -/
def LineProblem.message : LineProblem → String
  | .notUnicode => "line is not valid UTF-8"
  | .unknownLine word => s!"unknown line prefix {Text.quoted word}"
  | .missing field => s!"missing {field.label}"
  | .invalid field word => s!"invalid {field.label}: {Text.quoted word}"
  | .invalidFlag field value => s!"invalid {field.label}: {value}"
  | .unsupportedFormat version => s!"unsupported format {version}"
  | .baseOutOfRange => "base time out of range"
  | .outsideSection => "event outside of a thread section"
  | .timestampOverflow => "timestamp overflow"
  | .beforeTimeZero => "event starts before time zero"
  | .unknownNameId id => s!"unknown name id {id}"

/-- Why a text is no event log. -/
inductive DecodeError where
  /-- A line, counted from one, is wrong. -/
  | badLine (number : Nat) (problem : LineProblem)
  /-- No line is wrong, but none gives the properties of the run. -/
  | missingHeader
deriving DecidableEq, Repr

/-- The wording of a decoding error. -/
def DecodeError.message : DecodeError → String
  | .badLine number problem => s!"parse fail at line {number}: {problem.message}"
  | .missingHeader => "event log has no calibration header"

/-- Why a log cannot be written: a name is empty or has blanks. -/
structure InvalidName where
  name : String
deriving DecidableEq, Repr

/-- The wording of an encoding error. -/
def InvalidName.message (error : InvalidName) : String :=
  s!"event name cannot be encoded: {Text.quoted error.name.toList}"

end CallProfiler.Log
