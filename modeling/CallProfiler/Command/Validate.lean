import CallProfiler.Command.Report

/-!
# The validate and calibrate commands

Validation reads an event log and says what is in it and which threads give no profile; the
lines written before a failure stay written. Calibration shows the cost of a call as measured.
-/

namespace CallProfiler.Command

/-- Lines written, and how the writing of them ended. -/
structure Transcript where
  lines : List String
  ending : Except (Stop Failure) Unit

namespace Transcript

/-- The text of the lines. -/
def text (transcript : Transcript) : String :=
  String.join (transcript.lines.map fun line => line ++ "\n")

/-- A transcript with lines before it. -/
def after (lines : List String) (transcript : Transcript) : Transcript :=
  ⟨lines ++ transcript.lines, transcript.ending⟩

end Transcript

/-- The line of the thread whose frames a report is measured against. -/
def frameThreadLine (thread : ThreadProfile) : String :=
  let fps := String.ofList (Decimal.fixed 1 thread.fps)
  s!"  Frame thread: {thread.id} ({thread.frameCount} frames, {fps} fps)"

/-- The line of a thread that gives no profile. -/
def failureLine (failure : ThreadFailure) : String :=
  s!"  ✗ Thread {failure.id}: {failure.error.message}"

/-- The lines about a log that could be analysed. -/
def runTranscript (run : RunProfile) : Transcript :=
  let lines := run.frameThread?.toList.map frameThreadLine ++ run.failures.map failureLine
  if run.failures.isEmpty then ⟨lines, .ok ()⟩
  else ⟨lines, refuse (.plain s!"{run.failures.length} thread(s) failed to reconstruct")⟩

/-- The lines about a log. -/
def logTranscript (log : EventLog) : Transcript :=
  let calibration := log.calibration
  let analysis := match analyzeLog log true with
    | .ok run => runTranscript run
    | .error (.fault reached) => ⟨[], .error (.fault reached)⟩
    | .error (.refused error) =>
      ⟨[], refuse (.plain s!"Event log cannot be reported: {error.message}")⟩
  analysis.after [
    "✓ Valid event log",
    s!"  Calibration: {calibration.samples} samples, self {calibration.selfTime} ns, " ++
      s!"children {calibration.childrenTime} ns",
    s!"  Threads: {log.threads.size}",
    s!"  Events: {log.eventCount}"]

/-- Check that an event log can be read and that all of its threads give profiles. -/
def validate {m : Type → Type} [Monad m] (files : FileAccess m) (path : String) :
    m Transcript := do
  let opening := [s!"Validating event log: {path}"]
  match ← Log.load files path with
  | .error error => return ⟨opening, refuse (readFailure path error)⟩
  | .ok log => return (logTranscript log).after opening

/-- The line before a calibration. -/
def calibrationOpening (settings : CalibrationSettings) : String :=
  s!"Calibrating: {settings.trials} trials of {settings.samples} intervals"

/-- The lines about a calibration. -/
def calibrationLines (calibration : Calibration) : List String :=
  let perSelf := String.ofList (Decimal.fixed 1 calibration.selfPerCall)
  let perChildren := String.ofList (Decimal.fixed 1 calibration.childrenPerCall)
  [s!"  Self overhead:     {perSelf} ns/call",
   s!"  Children overhead: {perChildren} ns/call",
   s!"  Header triple:     {calibration.samples} {calibration.selfTime} " ++
     s!"{calibration.childrenTime}"]

/-- Combine the trials of a calibration and show the result. -/
def calibrate (settings : CalibrationSettings) (trials : List Trial) : Transcript :=
  let opening := [calibrationOpening settings]
  match Calibration.ofTrials settings trials with
  | .ok calibration => ⟨opening ++ calibrationLines calibration, .ok ()⟩
  | .error reached => ⟨opening, .error (.fault reached)⟩

end CallProfiler.Command
