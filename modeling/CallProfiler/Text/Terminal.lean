/-!
# Text for terminals

A text for a terminal may hold control characters, and sequences of control that begin with an
escape. A stream that is no terminal gets the text without them: `plain` keeps only characters
that show, which are all but the controls that are not blank, and of these it leaves out what
belongs to a sequence.
-/

namespace CallProfiler.Text.Terminal

/-- The control characters that are blank. They show even inside a sequence. -/
def isBlankControl (letter : Char) : Bool :=
  letter == '\t' || letter == '\n' || letter == '\x0c' || letter == '\r'

/-- Whether a character may show at all. -/
def isShown (letter : Char) : Bool :=
  if letter.toNat < 0x20 then isBlankControl letter else letter.toNat != 0x7F

/-- What a text is in the middle of. -/
inductive Part where
  /-- No sequence. -/
  | text
  /-- A sequence of which only the escape has come. -/
  | escape
  /-- A sequence with intermediate characters, which ends at its final one. -/
  | shortSequence
  /-- A sequence with parameters, which ends at its final character. -/
  | controlSequence
  /-- The parts before the text of a device command. -/
  | deviceEntry
  | deviceParameters
  | deviceIntermediates
  /-- A string, which ends at its terminator. -/
  | string
  /-- A command to the system, which ends at a bell. -/
  | systemCommand
deriving DecidableEq, Repr

namespace Part

/-- Whether a character shows here, if it may show at all. -/
def shows (part : Part) (letter : Char) : Bool :=
  match part with
  | .text => true
  | .escape | .shortSequence | .controlSequence => isBlankControl letter
  | _ => false

/-- Whether a character ends a string: one of the bytes that encode it is the terminator. -/
def isTerminator (letter : Char) : Bool := letter.toString.toUTF8.toList.contains 0x9C

/-- What comes after an escape. -/
def afterEscape (letter : Char) : Part :=
  let code := letter.toNat
  if code < 0x20 then .escape
  else if code ≤ 0x2F then .shortSequence
  else if letter = '[' then .controlSequence
  else if letter = ']' then .systemCommand
  else if letter = 'P' then .deviceEntry
  else if letter = 'X' ∨ letter = '^' ∨ letter = '_' then .string
  else if code ≤ 0x7E then .text
  else .escape

/-- What a text is in the middle of after a character that does not show. Everywhere, an escape
begins a sequence, and the two characters that cancel one bring the text back. -/
def next (part : Part) (letter : Char) : Part :=
  let code := letter.toNat
  if code = 0x18 ∨ code = 0x1A then .text
  else if code = 0x1B then .escape
  else match part with
    | .text => .text
    | .escape => afterEscape letter
    | .shortSequence => if 0x30 ≤ code ∧ code ≤ 0x7E then .text else part
    | .controlSequence => if 0x40 ≤ code ∧ code ≤ 0x7E then .text else part
    | .deviceEntry =>
      if code < 0x20 ∨ 0x7E < code then part
      else if code ≤ 0x2F then .deviceIntermediates
      else if code ≤ 0x3F then .deviceParameters
      else .string
    | .deviceParameters =>
      if code < 0x20 ∨ 0x7E < code then part
      else if code ≤ 0x2F then .deviceIntermediates
      else if code ≤ 0x3B then part
      else .string
    | .deviceIntermediates => if 0x30 ≤ code ∧ code ≤ 0x7E then .string else part
    | .string => if isTerminator letter then .text else part
    | .systemCommand => if code = 0x07 then .text else part

end Part

/-- The characters of a text that show, from the middle of something on. A character that shows
inside a sequence interrupts it: what follows shows too, up to the next control character. -/
def shown (interrupted : Bool) (part : Part) : List Char → List Char
  | [] => []
  | letter :: rest =>
    if isShown letter && (interrupted || part.shows letter) then
      letter :: shown true (if letter.toNat < 0x80 then part else .text) rest
    else shown false (part.next letter) rest

/-- A text as a stream gets it that is no terminal. -/
def plain (text : String) : String := String.ofList (shown false .text text.toList)

/-- A text in bold type. -/
def bold (text : String) : String := "\x1b[1m" ++ text ++ "\x1b[0m"

/-- A text in yellow. -/
def yellow (text : String) : String := "\x1b[33m" ++ text ++ "\x1b[0m"

end CallProfiler.Text.Terminal
