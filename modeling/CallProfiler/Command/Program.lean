import CallProfiler.Command.Line

/-!
# The program

A run of the program reads its command line, carries the command out and ends with an exit
code: zero after success, one after a failure, two after a usage error, and 101 after a fault.
Files, clocks and measurements come from an environment, so a run is a function of it.
-/

namespace CallProfiler.Command

/-- The world around a run. -/
structure Environment (m : Type → Type) where
  files : FileAccess m
  /-- The variables that are set. -/
  lookup : String → Option String
  /-- Measure the cost of recording. -/
  measure : CalibrationSettings → m (List Trial)
  /-- The time now, in words. -/
  now : m String

/-- How a run ended. -/
structure Exit where
  code : Nat
  /-- What was written for the user. -/
  output : String
  /-- What was written about a failure. -/
  complaint : String
deriving DecidableEq, Repr

namespace Exit

/-- The exit after output and a failure or fault, if there was one. -/
def ofEnding (output : String) : Except (Stop Failure) Unit → Exit
  | .ok () => ⟨0, output, ""⟩
  | .error (.refused failure) => ⟨1, output, s!"Error: {failure.listing}\n"⟩
  | .error (.fault reached) => ⟨101, output, s!"{reached.message}\n"⟩

/-- The exit after lines and their ending. -/
def ofTranscript (transcript : Transcript) : Exit := ofEnding transcript.text transcript.ending

/-- The exit after a text, or after what went wrong before there was one. -/
def ofText : Except (Stop Failure) String → Exit
  | .ok text => ofEnding text (.ok ())
  | .error stop => ofEnding "" (.error stop)

end Exit

/-- The name of the program. -/
def programName : String := "fpsprof"

/-- The version of the program. -/
def programVersion : String := "0.1.0"

/-- What the version command writes. -/
def aboutText : String :=
  s!"{programName} v{programVersion}\nSummary Schema: v{Summary.schemaVersion}\n\n" ++
    "An in-process call-interval profiler for frame-driven applications.\n"

/-- How the program is used. -/
def helpText : String :=
  s!"Usage: {programName} [--verbose] <COMMAND>\n\n" ++
    "  report <LOG> [--sections <MASK>] [--json <FILE>] [--no-mitigate]\n" ++
    "  validate <LOG>\n" ++
    "  calibrate [--samples <N>] [--trials <N>] [--sigma <K>]\n" ++
    "  version\n"

/-- Carry a command out. -/
def runCommand {m : Type → Type} [Monad m] (environment : Environment m) :
    Invocation → m Exit
  | .report request => do
    let now ← environment.now
    return .ofText (← (checkedReport environment.files request now).run)
  | .validate path => return .ofTranscript (← validate environment.files path)
  | .calibrate settings => do
    let trials ←
      if settings.samples = 0 ∨ settings.trials = 0 then pure []
      else environment.measure settings
    return .ofTranscript (calibrate settings trials)
  | .about => return ⟨0, aboutText, ""⟩
  | .programVersion => return ⟨0, s!"{programName} {programVersion}\n", ""⟩
  | .help => return ⟨0, helpText, ""⟩

/-- Run the program with arguments. -/
def run {m : Type → Type} [Monad m] (environment : Environment m) (arguments : List String) :
    m Exit :=
  match readCommand environment.lookup false arguments with
  | .ok command => runCommand environment command
  | .error error => return ⟨2, "", error.complaint⟩

end CallProfiler.Command
