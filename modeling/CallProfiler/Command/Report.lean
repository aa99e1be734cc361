import CallProfiler.Capture.Registry
import CallProfiler.Command.Failure
import CallProfiler.Files.Path
import CallProfiler.Summary

/-!
# The report command

Reads an event log, analyses it, renders the chosen sections and writes a JSON summary where
one is asked for. The request is checked before any of that.
-/

namespace CallProfiler.Command

/-- What a report is wanted of. -/
structure ReportRequest where
  logPath : String
  sections : UInt32
  summaryPath : Option String
  /-- Take calibrated overhead off. -/
  mitigate : Bool
deriving DecidableEq, Repr

/-- Steps of a command that can fail. -/
abbrev Attempt (m : Type → Type) := ExceptT (Stop Failure) m

section

variable {m : Type → Type} [Monad m]

/-- Fail with a message. -/
def fail {α : Type} (failure : Failure) : Attempt m α := ExceptT.mk (return refuse failure)

/-- Go on with the value of a computation, or fail as it does. -/
def attempt {α Reason : Type} (describe : Reason → Failure)
    (outcome : Except (Stop Reason) α) : Attempt m α :=
  ExceptT.mk (return Stop.restate describe outcome)

/-- Why an event log could not be read, under the message of the command. -/
def readFailure (path : String) (error : LogReadError) : Failure :=
  let message := s!"Failed to read event log {path}"
  match error with
  | .decode _ => ⟨message, [error.message]⟩
  | .system reason => ⟨message, [error.message, reason.message]⟩

/-- Read the event log of a command. -/
def readLog (files : FileAccess m) (path : String) : Attempt m EventLog := do
  match ← ExceptT.lift (Log.load files path) with
  | .ok log => return log
  | .error error => fail (readFailure path error)

/-- Why a summary could not be written, under the message of the command. -/
def summaryFailure (error : OutputError) : Failure :=
  let message := "Failed to write JSON summary"
  match error with
  | .writeFailed reason => ⟨message, [error.message, reason.message]⟩
  | .invalidPath _ => ⟨message, [error.message]⟩

/-- Write a summary, making the directory that it goes to if there is none. -/
def writeSummary (files : FileAccess m) (path : String) (summary : Summary) :
    m (Except OutputError Unit) := do
  if path.isEmpty then return .error (.invalidPath "Path is empty")
  if ← files.isDirectory path then
    return .error (.invalidPath s!"Path is a directory: {path}")
  let parent := (FilePath.parent? path).getD ""
  let exists? := parent.isEmpty || (← files.isDirectory parent) || (← files.isFile parent)
  let made ← if exists? then pure (.ok ()) else files.makeDirectories parent
  match made with
  | .error reason =>
    return .error (.invalidPath s!"Cannot create directory {parent}: {reason.message}")
  | .ok () =>
    return (← files.write path summary.write.toList).mapError .writeFailed

/-- Read a summary back. None stands for a text that holds no summary. -/
def readSummary (files : FileAccess m) (path : String) :
    m (Except OutputError (Option Summary)) := do
  match ← files.read path with
  | .error reason => return .error (.writeFailed reason)
  | .ok content => return .ok (do Summary.read? (← content.toText?))

/-- Check what can be checked of a request before anything is read. -/
def checkRequest (files : FileAccess m) (request : ReportRequest) : Attempt m Unit := do
  let known := Report.Section.allBits
  if request.sections = 0 then
    fail (.plain "At least one report section must be selected")
  else if request.sections &&& ~~~known ≠ 0 then
    let given := String.ofList (Text.hexadecimal request.sections.toNat)
    let valid := String.ofList (Text.hexadecimal known.toNat)
    fail (.plain s!"Unknown report section bits in 0x{given} (valid: 0x{valid})")
  else if !(← ExceptT.lift (files.isFile request.logPath)) then
    fail (.plain s!"Event log not found: {request.logPath}")

/-- Render the report of a request and write its summary. -/
def report (files : FileAccess m) (request : ReportRequest) (now : String) :
    Attempt m String := do
  let log ← readLog files request.logPath
  let run ← attempt (fun (error : RunError) =>
    ⟨"Failed to analyse event log", [error.message]⟩) (analyzeLog log request.mitigate)
  let text ← attempt Failure.plain (Stop.ofFault (Report.render run request.sections))
  match request.summaryPath with
  | none => return text
  | some path =>
    let mitigated := request.mitigate && log.calibration.isCalibrated
    let summary ← attempt Failure.plain (Stop.ofFault (Summary.ofRun run mitigated now))
    match ← ExceptT.lift (writeSummary files path summary) with
    | .ok () => return text
    | .error error => fail (summaryFailure error)

/-- Check a request and carry it out. -/
def checkedReport (files : FileAccess m) (request : ReportRequest) (now : String) :
    Attempt m String := do
  checkRequest files request
  report files request now

end

end CallProfiler.Command
