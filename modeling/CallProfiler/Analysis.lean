import CallProfiler.CallTree.Build
import CallProfiler.CallTree.Mitigation
import CallProfiler.CallTree.Recursion
import CallProfiler.CallTree.Statistics
import CallProfiler.EventLog

/-!
# Analysis of a run

Each thread is analysed on its own: its events are built into a call tree, mitigated, collapsed
and summed up by name. A thread whose events are refused is listed as a failure and leaves the
others alone. Reports measure everything against frames, so a run without any frame thread is
refused.
-/

namespace CallProfiler

/-- Both trees of one thread and its statistics. -/
structure ThreadProfile where
  id : UInt32
  full : CallTree
  collapsed : CallTree
  stats : List FunctionStat
deriving DecidableEq, Repr

namespace ThreadProfile

def isFrameThread (profile : ThreadProfile) : Bool := profile.full.root.frame

/-- The number of frames; none on a thread that makes no frames. -/
def frameCount (profile : ThreadProfile) : Nat :=
  (profile.full.frameNode?.map (·.count)).getD 0

/-- The time spent in frames. -/
def frameTime (profile : ThreadProfile) : Nat :=
  (profile.full.frameNode?.map (·.realtime)).getD 0

/-- Frames per second of frame time. -/
def fps (profile : ThreadProfile) : Float :=
  if profile.frameTime = 0 then 0.0
  else profile.frameCount.toUInt64.toFloat * 1e9 / profile.frameTime.toUInt64.toFloat

/-- The number of events in the full tree. -/
def eventCount (profile : ThreadProfile) : Except Fault Nat :=
  Checked.sum 64 (profile.full.children.preorder.map (·.count))

end ThreadProfile

/-- A thread that gave no profile. -/
structure ThreadFailure where
  id : UInt32
  error : AnalysisError
deriving DecidableEq, Repr

/-- The analysis of every thread of a log. -/
structure RunProfile where
  calibration : Calibration
  /-- Profiles in ascending order of the ids, those of frame threads first. -/
  threads : List ThreadProfile
  failures : List ThreadFailure

namespace RunProfile

/-- The thread whose frames everything is measured against. -/
def frameThread? (run : RunProfile) : Option ThreadProfile :=
  run.threads.head?.filter (·.isFrameThread)

end RunProfile

/-- Why a run as a whole gives no profile. -/
inductive RunError where
  | noFrameThread
deriving DecidableEq, Repr

/-- The wording of a refused run. -/
def RunError.message : RunError → String
  | .noFrameThread => "no frame thread found"

/-- Analyse one thread's events. -/
def analyzeThread (id : UInt32) (events : List Event) (calibration : Calibration)
    (mitigate : Bool) : Except (Stop AnalysisError) ThreadProfile := do
  let built ← CallTree.build events
  let full ← if mitigate then Stop.ofFault (built.mitigated calibration) else .ok built
  let collapsed ← full.collapseRecursion
  let stats ← collapsed.statistics
  return { id, full, collapsed, stats }

/-- Analyse threads one by one, sorting profiles from failures. -/
def analyzeThreads (calibration : Calibration) (mitigate : Bool) :
    List (UInt32 × List Event) → Except Fault (List ThreadProfile × List ThreadFailure)
  | [] => .ok ([], [])
  | (id, events) :: rest =>
    match analyzeThread id events calibration mitigate with
    | .error (.fault reached) => .error reached
    | .error (.refused error) => do
      let (profiles, failures) ← analyzeThreads calibration mitigate rest
      return (profiles, ⟨id, error⟩ :: failures)
    | .ok profile => do
      let (profiles, failures) ← analyzeThreads calibration mitigate rest
      return (profile :: profiles, failures)

/-- Analyse every thread of a log. -/
def analyzeLog (log : EventLog) (mitigate : Bool) : Except (Stop RunError) RunProfile := do
  let (profiles, failures) ← analyzeThreads log.calibration mitigate log.threads.entries
  let (framed, others) := profiles.partition (·.isFrameThread)
  if framed.isEmpty then refuse .noFrameThread
  else return { calibration := log.calibration, threads := framed ++ others, failures }

end CallProfiler
