import CallProfiler.Calibration
import CallProfiler.Calibration.Trim
import CallProfiler.Report
import CallProfiler.Text.Blank

/-!
# Settings

How often overhead is measured, and what a registry writes at shutdown. Some settings can be
given in the environment; a number that cannot be read there counts as not given.
-/

namespace CallProfiler

/-- How overhead is measured. -/
structure CalibrationSettings where
  /-- Sample calls in a trial. -/
  samples : UInt32
  trials : UInt32
  trim : TrimPolicy

namespace CalibrationSettings

/-- The settings where nothing else is asked for. -/
def standard : CalibrationSettings := ⟨100000, 5, .standard⟩

/-- A number given in the environment, blanks around it ignored. -/
def numberOf? (text : String) : Option UInt32 :=
  match Text.readNat 10 32 (Text.trim text.toList) with
  | .ok value => some (.ofNat value)
  | .error _ => none

/-- The environment variable of the sample count. -/
def samplesVariable : String := "FPSPROF_CALIBRATION_SAMPLES"

/-- The environment variable of the trial count. -/
def trialsVariable : String := "FPSPROF_CALIBRATION_TRIALS"

/-- The standard settings with what the environment gives. -/
def ofEnvironment (environment : String → Option String) : CalibrationSettings := {
  standard with
  samples := ((environment samplesVariable).bind numberOf?).getD standard.samples
  trials := ((environment trialsVariable).bind numberOf?).getD standard.trials }

end CalibrationSettings

/-- What one trial measured, in nanoseconds. -/
structure Trial where
  selfTime : UInt64
  childrenTime : UInt64
deriving DecidableEq, Repr

/-- The calibration of some trials. Without samples or trials nothing counts as measured. -/
def Calibration.ofTrials (settings : CalibrationSettings) (trials : List Trial) :
    Except Fault Calibration := do
  if settings.samples = 0 ∨ settings.trials = 0 then return .none
  let selfTime ← settings.trim.combine (trials.map (·.selfTime))
  let childrenTime ← settings.trim.combine (trials.map (·.childrenTime))
  return ⟨settings.samples, .ofNat selfTime, .ofNat childrenTime⟩

/-- What a registry measures with and writes at shutdown. -/
structure ProfilerSettings where
  calibration : CalibrationSettings
  /-- Read CPU time from the clock of the process. -/
  processClock : Bool
  /-- Where the event log goes, if anywhere. -/
  logPath : Option String
  /-- Where the text report goes, if anywhere. -/
  reportPath : Option String
  /-- The mask of the report's sections. -/
  sections : UInt32

namespace ProfilerSettings

/-- The settings where nothing else is asked for. -/
def standard : ProfilerSettings where
  calibration := .standard
  processClock := false
  logPath := none
  reportPath := none
  sections := Report.Section.allBits

/-- The environment variable of the event log's path. -/
def logVariable : String := "FPSPROF_SERIALIZE_FILE"

/-- The environment variable of the report's path. -/
def reportVariable : String := "FPSPROF_REPORT_FILE"

/-- The standard settings with what the environment gives. -/
def ofEnvironment (environment : String → Option String) : ProfilerSettings := {
  standard with
  calibration := .ofEnvironment environment
  logPath := environment logVariable
  reportPath := environment reportVariable }

end ProfilerSettings

end CallProfiler
