import CallProfiler.Command.Arguments
import CallProfiler.Command.Validate
import CallProfiler.Decimal.Reading
import CallProfiler.Text.Terminal

/-!
# Command lines

A command line names one of four commands and what it is to do. Values are checked as the
arguments are taken, so of a wrong value and a mistake after the next argument the wrong value
decides.
-/

namespace CallProfiler.Command

/-- What a command line asks for. -/
inductive Invocation where
  | report (request : ReportRequest)
  | validate (path : String)
  | calibrate (settings : CalibrationSettings)
  | about
  | programVersion
  | help

/-- Why a command line asks for nothing. -/
inductive UsageError where
  /-- An argument is missing, unknown or repeated. -/
  | misuse
  /-- A section mask is no number. -/
  | sectionMask (value : String) (problem : Text.NumeralProblem)
deriving DecidableEq, Repr

/-- The wording of a usage error, marked for a terminal. -/
def UsageError.message : UsageError → String
  | .misuse => "unexpected or missing argument"
  | .sectionMask value problem =>
    let shown := Text.Terminal.yellow value
    let option := Text.Terminal.bold "--sections <SECTIONS>"
    s!"invalid value '{shown}' for '{option}': " ++
      s!"invalid section mask '{value}': {problem.message}"

/-- What is written about a usage error, on a stream that is no terminal. -/
def UsageError.complaint (error : UsageError) : String :=
  let heading := Text.Terminal.bold "error:"
  let option := Text.Terminal.bold "--help"
  Text.Terminal.plain
    s!"{heading} {error.message}\n\nFor more information, try '{option}'.\n"

/-- Read a section mask: decimal, or hexadecimal after `0x`. -/
def readMask (value : String) : Except UsageError UInt32 :=
  let number := match value.toList with
    | '0' :: 'x' :: digits => Text.readNat 16 32 digits
    | digits => Text.readNat 10 32 digits
  match number with
  | .ok mask => .ok (.ofNat mask)
  | .error problem => .error (.sectionMask value problem)

/-- Read a count of 32 bits. -/
def readCount (value : String) : Except UsageError UInt32 :=
  match Text.readInt 64 value.toList with
  | .ok count => if 0 ≤ count ∧ count < Width.bound 32 then .ok (.ofNat count.toNat) else .error .misuse
  | .error _ => .error .misuse

/-- Read a path, which cannot be empty. -/
def readPath (value : String) : Except UsageError String :=
  if value.isEmpty then .error .misuse else .ok value

def verboseOption : OptionSpec := ⟨"verbose", some 'v', false⟩
def helpOption : OptionSpec := ⟨"help", some 'h', false⟩
def versionOption : OptionSpec := ⟨"version", some 'V', false⟩

/-- The options of the report command. -/
def reportOptions : List OptionSpec :=
  [⟨"sections", some 's', true⟩, ⟨"json", some 'j', true⟩, ⟨"no-mitigate", none, false⟩,
    verboseOption, helpOption]

/-- The options of the calibrate command. -/
def calibrateOptions : List OptionSpec :=
  [⟨"samples", none, true⟩, ⟨"trials", none, true⟩, ⟨"sigma", none, true⟩, verboseOption,
    helpOption]

/-- Take arguments in order onto a value. An option that was seen before is a mistake, and help
ends everything. None stands for help. -/
def takeAll {α : Type} (use : α → Argument → Except UsageError α) (ending : ArgumentsEnd)
    (seen : List String) (value : α) : List Argument → Except UsageError (Option α)
  | [] => if ending = .complete then .ok (some value) else .error .misuse
  | .operand text :: rest => do
    takeAll use ending seen (← use value (.operand text)) rest
  | .option long given :: rest =>
    if long = "help" then .ok none
    else if seen.contains long then .error .misuse
    else do takeAll use ending (long :: seen) (← use value (.option long given)) rest

/-- Take all arguments of a command; none where help was asked for. -/
def takeArguments {α : Type} (use : α → Argument → Except UsageError α) (start : α)
    (arguments : Arguments) : Except UsageError (Option α) :=
  takeAll use arguments.ending [] start arguments.taken

/-- What the arguments of the report command have said so far. -/
structure ReportArguments where
  logPath : Option String
  sections : UInt32
  summaryPath : Option String
  mitigate : Bool

namespace ReportArguments

/-- Take an argument of the report command. -/
def use (given : ReportArguments) : Argument → Except UsageError ReportArguments
  | .operand path => return { given with logPath := some (← readPath path) }
  | .option "sections" (some value) => return { given with sections := ← readMask value }
  | .option "json" (some value) => return { given with summaryPath := some (← readPath value) }
  | .option "no-mitigate" _ => return { given with mitigate := false }
  | .option _ _ => return given

/-- Read the arguments of the report command. -/
def command (arguments : List String) : Except UsageError Invocation := do
  let start : ReportArguments := ⟨none, Report.Section.allBits, none, true⟩
  match ← takeArguments use start (.read reportOptions 1 arguments) with
  | none => return .help
  | some given =>
    match given.logPath with
    | none => throw .misuse
    | some logPath =>
      return .report ⟨logPath, given.sections, given.summaryPath, given.mitigate⟩

end ReportArguments

/-- Read the arguments of the validate command. -/
def validateCommand (arguments : List String) : Except UsageError Invocation := do
  let use (given : Option String) : Argument → Except UsageError (Option String)
    | .operand path => return some (← readPath path)
    | .option _ _ => return given
  match ← takeArguments use none (.read [verboseOption, helpOption] 1 arguments) with
  | none => return .help
  | some none => throw .misuse
  | some (some path) => return .validate path

/-- What the arguments of the calibrate command have said so far. -/
structure CalibrateArguments where
  samples : Option UInt32
  trials : Option UInt32
  sigma : Option Float

namespace CalibrateArguments

/-- Take an argument of the calibrate command. -/
def use (given : CalibrateArguments) : Argument → Except UsageError CalibrateArguments
  | .option "samples" (some value) => return { given with samples := some (← readCount value) }
  | .option "trials" (some value) => return { given with trials := some (← readCount value) }
  | .option "sigma" (some value) =>
    match Decimal.read? value.toList with
    | some bound => return { given with sigma := some bound }
    | none => throw .misuse
  | _ => return given

/-- A count that is given, or else that of the environment, or else the standard one. -/
def count (given : Option UInt32) (environment : Option String) (standard : UInt32) :
    Except UsageError UInt32 :=
  match given, environment with
  | some value, _ => .ok value
  | none, some text => readCount text
  | none, none => .ok standard

/-- Read the arguments of the calibrate command. -/
def command (environment : String → Option String) (arguments : List String) :
    Except UsageError Invocation := do
  match ← takeArguments use ⟨none, none, none⟩ (.read calibrateOptions 0 arguments) with
  | none => return .help
  | some given =>
    let standard := CalibrationSettings.standard
    let samples ← count given.samples (environment CalibrationSettings.samplesVariable)
      standard.samples
    let trials ← count given.trials (environment CalibrationSettings.trialsVariable)
      standard.trials
    return .calibrate ⟨samples, trials, given.sigma.elim standard.trim .sigmaClip⟩

end CalibrateArguments

/-- Read the arguments of the version command. -/
def aboutCommand (arguments : List String) : Except UsageError Invocation := do
  let use (_ : Unit) (_ : Argument) : Except UsageError Unit := return ()
  match ← takeArguments use () (.read [verboseOption, helpOption] 0 arguments) with
  | none => return .help
  | some () => return .about

/-- Read the arguments of the help command: it may be asked about one command. -/
def helpCommand : List String → Except UsageError Invocation
  | [] => .ok .help
  | [name] =>
    if ["report", "validate", "calibrate", "version", "help"].contains name then .ok .help
    else .error .misuse
  | _ => .error .misuse

/-- What options of the program itself come to: either what they ask for at once, or whether
they have asked for verbose output. -/
def takeProgramOptions (verbose : Bool) : List Argument → Except UsageError (Invocation ⊕ Bool)
  | [] => .ok (.inr verbose)
  | .option "help" _ :: _ => .ok (.inl .help)
  | .option "version" _ :: _ => .ok (.inl .programVersion)
  | _ :: rest => if verbose then .error .misuse else takeProgramOptions true rest

/-- Read a command line. Options of the program itself may stand before the command. -/
def readCommand (environment : String → Option String) (verbose : Bool) :
    List String → Except UsageError Invocation
  | [] => .error .misuse
  | name :: rest =>
    if Arguments.isOption name then
      let bundle := Arguments.readOption [verboseOption, helpOption, versionOption] name
      match takeProgramOptions verbose bundle.complete with
      | .error error => .error error
      | .ok (.inl invocation) => .ok invocation
      | .ok (.inr verbose) =>
        if bundle.known then readCommand environment verbose rest else .error .misuse
    else match name with
      | "report" => ReportArguments.command rest
      | "validate" => validateCommand rest
      | "calibrate" => CalibrateArguments.command environment rest
      | "version" => aboutCommand rest
      | "help" => helpCommand rest
      | _ => .error .misuse

end CallProfiler.Command
