import CallProfiler.Text.Column
import CallProfiler.Text.Numeral

/-!
# Stack violations

An interval has to be the innermost open one when it is closed. Where it is not, a diagnostic
lists the intervals that are open and marks the one that was being closed.
-/

namespace CallProfiler.Capture

open CallProfiler.Text

/-- An interval that was open at a violation. -/
structure OpenInterval where
  name : String
  level : Int
  /-- The interval has the name and level of the one that was being closed. -/
  isExit : Bool
deriving DecidableEq, Repr

/-- What is known of a violation. -/
structure Diagnostic where
  openIntervals : List OpenInterval
  exitName : String
  exitLevel : Int
  currentLevel : Int
deriving DecidableEq, Repr

/-- Spaces before the name of an open interval: two for each level, as far as a column goes. -/
def OpenInterval.indent (interval : OpenInterval) : Except Fault Nat :=
  columnWidth (2 * interval.level.toNat)

/-- The line of an open interval under its indent. -/
def OpenInterval.line (interval : OpenInterval) (indent : Nat) : String :=
  let mark := if interval.isExit then " <- exit is here" else ""
  String.ofList (flushRight 2 (signedDecimal interval.level) ++ [':', ' '] ++
    List.replicate indent ' ') ++ s!" {interval.name}{mark}\n"

/-- The wording of a diagnostic, one line for each open interval and one for the verdict. -/
def Diagnostic.message (diagnostic : Diagnostic) : Except Fault String := do
  let intervals := diagnostic.openIntervals
  let indents ← intervals.mapM OpenInterval.indent
  return String.join (List.zipWith OpenInterval.line intervals indents) ++
    s!"error: pop '{diagnostic.exitName}' event with a stack level of " ++
    s!"{diagnostic.exitLevel}, but current stack level is {diagnostic.currentLevel}"

/-- Why an interval cannot be closed. -/
inductive CaptureError where
  | stackMismatch (diagnostic : Diagnostic)
  | invalidHandle (slot : Nat)
deriving DecidableEq, Repr

/-- The wording of a refused closing. -/
def CaptureError.message : CaptureError → Except Fault String
  | .stackMismatch diagnostic => do
    let message ← diagnostic.message
    return s!"stack discipline violated\n{message}"
  | .invalidHandle slot => return s!"unknown interval handle: {slot}"

end CallProfiler.Capture
