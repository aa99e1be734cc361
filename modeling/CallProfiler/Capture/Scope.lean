import CallProfiler.Capture.Registry

/-!
# Scopes

The capture of one thread as its program sees it. The thread gets a recorder when it first
opens or closes an interval; a flush hands the recorder's events to the registry and gives the
recorder up, so the next interval begins with a new one. A guard closes its interval when its
scope is left, whichever recorder the thread has by then.
-/

namespace CallProfiler.Capture

/-- A thread with its recorder, if it has one now, and the registry of its process. -/
structure ThreadCapture where
  registry : Registry
  current : Option Recorder

/-- Closes its interval when its scope is left. -/
structure ScopeGuard where
  handle : Handle
deriving DecidableEq, Repr

namespace ThreadCapture

/-- A thread that has recorded nothing. -/
def new (registry : Registry) : ThreadCapture := ⟨registry, none⟩

/-- The thread's recorder, a new one if it has none. -/
def recorder (thread : ThreadCapture) : Recorder :=
  thread.current.getD thread.registry.recorder

/-- Open an interval. -/
def push (thread : ThreadCapture) (name : String) (frame : Bool) (now : Reading) :
    ThreadCapture × Except Fault Handle :=
  let (recorder, outcome) := thread.recorder.push name frame now
  ({ thread with current := some recorder }, outcome)

/-- Close an interval. -/
def pop (thread : ThreadCapture) (handle : Handle) (now : Reading) :
    ThreadCapture × Except (Stop CaptureError) Unit :=
  let (recorder, outcome) := thread.recorder.pop handle now
  ({ thread with current := some recorder }, outcome)

/-- Hand off what the thread recorded and give its recorder up. -/
def flush (thread : ThreadCapture) : ThreadCapture :=
  match thread.current with
  | none => thread
  | some recorder =>
    let (_, handedOff) := recorder.flush
    ⟨thread.registry.acceptHandOff handedOff, none⟩

/-- Open the interval of a scope. -/
def enter (thread : ThreadCapture) (name : String) (frame : Bool) (now : Reading) :
    ThreadCapture × Except Fault ScopeGuard :=
  let (thread, outcome) := thread.push name frame now
  (thread, outcome.map ScopeGuard.mk)

/-- Leave the scope of a guard; a violation only poisons the recorder. -/
def leave (thread : ThreadCapture) (guard : ScopeGuard) (now : Reading) : ThreadCapture :=
  (thread.pop guard.handle now).1

/-- Another thread of the process runs to its end beside this one. -/
def beside (thread : ThreadCapture) (other : ThreadCapture → ThreadCapture) : ThreadCapture :=
  { thread with registry := (other (.new thread.registry)).flush.registry }

variable {m : Type → Type} [Monad m]

/-- Hand off what the thread recorded, then write what the registry is to write. -/
def finish (files : FileAccess m) (thread : ThreadCapture) :
    m (ThreadCapture × Except (Stop ShutdownError) EventLog) := do
  let thread := thread.flush
  let (registry, outcome) ← thread.registry.finish files
  return ({ thread with registry }, outcome)

end ThreadCapture

end CallProfiler.Capture
