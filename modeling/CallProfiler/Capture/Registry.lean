import CallProfiler.Calibration.Settings
import CallProfiler.Capture.Recorder
import CallProfiler.Files
import CallProfiler.Log.Encoder

/-!
# Registries

A registry collects the event lists that recorders hand off and gives each the next thread id.
Its log can be taken at any time. At shutdown it takes the log and writes the event log and the
text report that its settings ask for, in that order.
-/

namespace CallProfiler

/-- Why a text could not be written to a file. -/
inductive OutputError where
  | writeFailed (reason : SystemError)
  | invalidPath (message : String)
deriving DecidableEq, Repr

/-- The wording of a failed output. -/
def OutputError.message : OutputError → String
  | .writeFailed reason => s!"Failed to write file: {reason.message}"
  | .invalidPath message => s!"Invalid output path: {message}"

/-- Why an event log could not be written to a file. -/
inductive LogWriteError where
  | invalidName (error : Log.InvalidName)
  | system (reason : SystemError)
deriving DecidableEq, Repr

/-- The wording of a failed log output. -/
def LogWriteError.message : LogWriteError → String
  | .invalidName error => error.message
  | .system reason => s!"IO error: {reason.message}"

/-- Why an event log could not be read from a file. -/
inductive LogReadError where
  | decode (error : Log.DecodeError)
  | system (reason : SystemError)
deriving DecidableEq, Repr

/-- The wording of a failed log input. -/
def LogReadError.message : LogReadError → String
  | .decode error => error.message
  | .system reason => s!"IO error: {reason.message}"

namespace Log

variable {m : Type → Type} [Monad m]

/-- Write a log to a file. What was written before an invalid name stays in the file. -/
def save (files : FileAccess m) (path : String) (options : EncodeOptions)
    (log : EventLog) : m (Except (Stop LogWriteError) Unit) := do
  let encoding := encode options log
  match ← files.write path encoding.text with
  | .error reason => return refuse (.system reason)
  | .ok () => return Stop.restate .invalidName encoding.outcome

/-- Read a log from a file. -/
def load (files : FileAccess m) (path : String) : m (Except LogReadError EventLog) := do
  match ← files.read path with
  | .error reason => return .error (.system reason)
  | .ok content => return (decode content.lines).mapError .decode

end Log

namespace Capture

/-- The context that the recorders of a process report to. -/
structure Registry where
  settings : ProfilerSettings
  calibration : Calibration
  threads : ThreadTable
  nextId : UInt32

/-- Why a shutdown did not write everything. -/
inductive ShutdownError where
  | log (error : LogWriteError)
  | output (error : OutputError)
  | run (error : RunError)
deriving DecidableEq, Repr

/-- The wording of a failed shutdown. -/
def ShutdownError.message : ShutdownError → String
  | .log error => s!"Failed to write event log: {error.message}"
  | .output error => s!"Failed to write report: {error.message}"
  | .run error => s!"Cannot build report: {error.message}"

namespace Registry

/-- A registry that holds nothing. -/
def new (settings : ProfilerSettings) (calibration : Calibration) : Registry :=
  ⟨settings, calibration, .empty, 0⟩

/-- A recorder for a thread. -/
def recorder (registry : Registry) : Recorder := .new registry.settings.processClock

/-- Take in an event list under the next id; an empty list takes no id. -/
def accept (registry : Registry) (events : List Event) : Registry :=
  if events.isEmpty then registry
  else { registry with
    threads := registry.threads.insert registry.nextId events
    nextId := registry.nextId + 1 }

/-- Take in what a recorder handed off. -/
def acceptHandOff (registry : Registry) (handedOff : Option (List Event)) : Registry :=
  handedOff.elim registry registry.accept

/-- Move everything collected out into a log. -/
def takeLog (registry : Registry) : Registry × EventLog :=
  ({ registry with threads := .empty }, ⟨registry.calibration, registry.threads⟩)

variable {m : Type → Type} [Monad m]

/-- Write the event log, if the settings ask for it. -/
def writeLog (files : FileAccess m) (settings : ProfilerSettings) (log : EventLog) :
    m (Except (Stop ShutdownError) Unit) :=
  match settings.logPath with
  | none => return .ok ()
  | some path => return Stop.restate .log (← Log.save files path .standard log)

/-- The report of a log with the sections of a mask, overhead taken off. -/
def reportText (log : EventLog) (sections : UInt32) : Except (Stop RunError) String := do
  let run ← analyzeLog log true
  Stop.ofFault (Report.render run sections)

/-- Write the text report, if the settings ask for it. -/
def writeReport (files : FileAccess m) (settings : ProfilerSettings) (log : EventLog) :
    m (Except (Stop ShutdownError) Unit) :=
  match settings.reportPath with
  | none => return .ok ()
  | some path =>
    match Stop.restate .run (reportText log settings.sections) with
    | .error stop => return .error stop
    | .ok report => do
      match ← files.write path report.toList with
      | .ok () => return .ok ()
      | .error reason => return refuse (.output (.writeFailed reason))

/-- Take the log and write what the settings ask for, up to the first failure. -/
def finish (files : FileAccess m) (registry : Registry) :
    m (Registry × Except (Stop ShutdownError) EventLog) := do
  let (registry, log) := registry.takeLog
  match ← writeLog files registry.settings log with
  | .error stop => return (registry, .error stop)
  | .ok () =>
    match ← writeReport files registry.settings log with
    | .error stop => return (registry, .error stop)
    | .ok () => return (registry, .ok log)

end Registry

end Capture

end CallProfiler
