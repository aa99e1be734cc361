import CallProfiler.Capture.Measurement
import CallProfiler.Command.Program
import CallProfiler.Command.Timestamp
import Std.Time.DateTime.Timestamp

/-!
# The command line

Connects the program to the files, clocks and streams of the system it runs on.
-/

open CallProfiler CallProfiler.Capture

namespace CallProfiler.Main

/-- The refusal that an input or output error stands for. -/
def systemError : IO.Error → SystemError
  | .noFileOrDirectory .. | .noSuchThing .. => .notFound
  | .alreadyExists .. => .fileExists
  | .inappropriateType _ code _ => if code = 21 then .isADirectory else .notADirectory
  | .invalidArgument _ 36 _ => .nameTooLong
  | error => .other (toString error)

/-- Carry an operation out and keep its refusal as a value. -/
def refusals {α : Type} (operation : IO α) : IO (Except SystemError α) := do
  match ← operation.toBaseIO with
  | .ok value => return .ok value
  | .error error => return .error (systemError error)

/-- Whether a path leads to a directory, and whether it leads anywhere. -/
def inspect (path : String) : IO (Bool × Bool) := do
  match ← (IO.FS.realPath path).toBaseIO with
  | .ok found => return (← found.isDir, ← found.pathExists)
  | .error _ => return (false, false)

/-- Make a directory and those above it that are missing. -/
partial def makeDirectories (path : String) : IO (Except SystemError Unit) := do
  if path.isEmpty then return .ok ()
  let made ← match ← refusals (IO.FS.createDir path), FilePath.parent? path with
    | .error .notFound, some parent =>
      match ← makeDirectories parent with
      | .error reason => return .error reason
      | .ok () => refusals (IO.FS.createDir path)
    | made, _ => pure made
  match made with
  | .ok () => return .ok ()
  | .error reason => return if (← inspect path).1 then .ok () else .error reason

/-- The files of the system. -/
def files : FileAccess IO where
  isFile path := do
    let (directory, found) ← inspect path
    return found && !directory
  isDirectory path := return (← inspect path).1
  read path := refusals do
    return .bytes (← IO.FS.readBinFile path).toList
  write path text := refusals (IO.FS.writeFile path (String.ofList text))
  makeDirectories

/-- Read the clocks. No clock of CPU time is at hand, so that time reads as zero. -/
def readClocks : IO Reading := do
  return ⟨(← IO.monoNanosNow).toUInt64, 0⟩

/-- Record one trial. -/
def recordTrial (samples : Nat) : IO Trial := do
  let (recorder, outer) := (Recorder.new false).push "outer" false (← readClocks)
  let mut recorder := recorder
  for _ in [0:samples] do
    let (opened, inner) := recorder.push "dummy" false (← readClocks)
    recorder := opened
    if let .ok handle := inner then
      recorder := (recorder.pop handle (← readClocks)).1
  if let .ok handle := outer then
    recorder := (recorder.pop handle (← readClocks)).1
  match trialOfEvents (recorder.flush.2.getD []) with
  | .ok trial => return trial
  | .error reached => throw (IO.userError reached.message)

/-- Record the trials of a calibration. -/
def measure (settings : CalibrationSettings) : IO (List Trial) :=
  (List.range settings.trials.toNat).mapM fun _ => recordTrial settings.samples.toNat

/-- The time now. -/
def now : IO String := do
  let moment ← Std.Time.Timestamp.now
  return Command.timestamp moment.val.second.val.toNat moment.val.nano.val.toNat

end CallProfiler.Main

/-- Run the program and leave with its exit code. -/
def main (arguments : List String) : IO UInt32 := do
  let names := [CalibrationSettings.samplesVariable, CalibrationSettings.trialsVariable]
  let found ← names.mapM fun name => return (name, ← IO.getEnv name)
  let environment : Command.Environment IO := {
    files := Main.files
    lookup := fun name => (found.lookup name).join
    measure := Main.measure
    now := Main.now }
  let outcome ← Command.run environment arguments
  IO.print outcome.output
  IO.eprint outcome.complaint
  return .ofNat outcome.code
