import CallProfiler.Analysis
import CallProfiler.Json.Reader
import CallProfiler.Json.Writer

/-!
# Summaries

A summary is the part of a run profile that other programs read: the calibration, the totals of
every thread and function, and the threads that failed. It is written as JSON and read back
from it; a reader ignores fields that it does not know and refuses any that it knows to be
missing, repeated or out of range.
-/

namespace CallProfiler

/-- The totals of one thread. -/
structure ThreadSummary where
  id : Nat
  frameThread : Bool
  frames : Nat
  frameTime : Nat
  fps : Float
  events : Nat
  functions : List FunctionStat

/-- A thread that gave no profile, with the wording of the reason. -/
structure FailureSummary where
  id : Nat
  error : String
deriving DecidableEq, Repr

/-- What a JSON summary holds. -/
structure Summary where
  version : String
  /-- When the summary was made, in the words of the maker's clock. -/
  generatedAt : String
  calibration : Calibration
  mitigated : Bool
  threads : List ThreadSummary
  failures : List FailureSummary

namespace Summary

/-- The version of the schema that summaries are written in. -/
def schemaVersion : String := "1.0.0"

/-- The summary of one thread. -/
def ofThread (profile : ThreadProfile) : Except Fault ThreadSummary := do
  let events ← profile.eventCount
  return {
    id := profile.id.toNat
    frameThread := profile.isFrameThread
    frames := profile.frameCount
    frameTime := profile.frameTime
    fps := profile.fps
    events
    functions := profile.stats }

/-- The summary of a run. -/
def ofRun (run : RunProfile) (mitigated : Bool) (generatedAt : String) :
    Except Fault Summary := do
  let threads ← run.threads.mapM ofThread
  return {
    version := schemaVersion
    generatedAt
    calibration := run.calibration
    mitigated
    threads
    failures := run.failures.map fun failure => ⟨failure.id.toNat, failure.error.message⟩ }

open Json

/-- A JSON object of named values. -/
def record (fields : List (String × Value)) : Value :=
  .object (fields.map fun (name, value) => (some name, value))

def calibrationValue (calibration : Calibration) : Value := record [
  ("samples", .ofNat calibration.samples.toNat),
  ("self_ns", .ofNat calibration.selfTime.toNat),
  ("children_ns", .ofNat calibration.childrenTime.toNat)]

def statValue (stat : FunctionStat) : Value := record [
  ("name", .string stat.name),
  ("min_stack_level", .ofInt stat.minLevel),
  ("realtime_ns", .ofNat stat.realtime),
  ("cpu_ns", .ofNat stat.cpu),
  ("children_realtime_ns", .ofNat stat.childrenRealtime),
  ("count", .ofNat stat.count),
  ("recursions", .ofNat stat.recursions),
  ("process_clock", .bool stat.processClock)]

def threadValue (thread : ThreadSummary) : Value := record [
  ("thread_id", .ofNat thread.id),
  ("frame_thread", .bool thread.frameThread),
  ("frames", .ofNat thread.frames),
  ("frame_time_ns", .ofNat thread.frameTime),
  ("fps", .ofDouble thread.fps),
  ("events", .ofNat thread.events),
  ("functions", .array (thread.functions.map statValue))]

def failureValue (failure : FailureSummary) : Value := record [
  ("thread_id", .ofNat failure.id),
  ("error", .string failure.error)]

/-- The JSON value of a summary; failures are left out where there are none. -/
def toValue (summary : Summary) : Value :=
  let failures := if summary.failures.isEmpty then []
    else [("failures", Value.array (summary.failures.map failureValue))]
  record ([
    ("version", .string summary.version),
    ("generated_at", .string summary.generatedAt),
    ("calibration", calibrationValue summary.calibration),
    ("mitigated", .bool summary.mitigated),
    ("threads", .array (summary.threads.map threadValue))] ++ failures)

/-- The JSON text of a summary. -/
def write (summary : Summary) : String := summary.toValue.pretty

def calibrationOf? (value : Value) : Option Calibration := do
  match ← value.fields? ["samples", "self_ns", "children_ns"] with
  | [samples, selfTime, childrenTime] =>
    return ⟨.ofNat (← (← samples).unsigned? 32), .ofNat (← (← selfTime).unsigned? 64),
      .ofNat (← (← childrenTime).unsigned? 64)⟩
  | _ => none

def statOf? (value : Value) : Option FunctionStat := do
  match ← value.fields? ["name", "min_stack_level", "realtime_ns", "cpu_ns",
      "children_realtime_ns", "count", "recursions", "process_clock"] with
  | [name, minLevel, realtime, cpu, childrenRealtime, count, recursions, processClock] =>
    return {
      name := ← (← name).string?
      minLevel := ← (← minLevel).signed? 32
      realtime := ← (← realtime).unsigned? 64
      cpu := ← (← cpu).unsigned? 64
      childrenRealtime := ← (← childrenRealtime).unsigned? 64
      count := ← (← count).unsigned? 64
      recursions := ← (← recursions).unsigned? 32
      processClock := ← (← processClock).bool? }
  | _ => none

def threadOf? (value : Value) : Option ThreadSummary := do
  match ← value.fields? ["thread_id", "frame_thread", "frames", "frame_time_ns", "fps",
      "events", "functions"] with
  | [id, frameThread, frames, frameTime, fps, events, functions] =>
    return {
      id := ← (← id).unsigned? 32
      frameThread := ← (← frameThread).bool?
      frames := ← (← frames).unsigned? 64
      frameTime := ← (← frameTime).unsigned? 64
      fps := ← (← fps).double?
      events := ← (← events).unsigned? 64
      functions := ← (← functions).list? statOf? }
  | _ => none

def failureOf? (value : Value) : Option FailureSummary := do
  match ← value.fields? ["thread_id", "error"] with
  | [id, error] => return ⟨← (← id).unsigned? 32, ← (← error).string?⟩
  | _ => none

/-- The summary of a JSON value; failures may be missing. -/
def ofValue? (value : Value) : Option Summary := do
  match ← value.fields? ["version", "generated_at", "calibration", "mitigated", "threads",
      "failures"] with
  | [version, generatedAt, calibration, mitigated, threads, failures] =>
    return {
      version := ← (← version).string?
      generatedAt := ← (← generatedAt).string?
      calibration := ← calibrationOf? (← calibration)
      mitigated := ← (← mitigated).bool?
      threads := ← (← threads).list? threadOf?
      failures := ← match failures with
        | none => some []
        | some failures => failures.list? failureOf? }
  | _ => none

/-- The summary of a JSON text. -/
def read? (text : List Char) : Option Summary := do ofValue? (← Json.read? text)

end Summary

end CallProfiler
