import CallProfiler.Proofs.Capture.Recording

/-!
# Sessions

A session is a recorder together with what its user knows: the handles that pushes returned,
and those of the intervals that are still open. What is true of every session follows from
`Reached.invariant`, which asks no more of a property than that the outcomes of a push and of a
pop keep it.
-/

namespace CallProfiler.Capture

/-- A recorder with the handles that its user has. -/
structure Session where
  recorder : Recorder
  /-- The handles that pushes returned, the latest first. -/
  given : List Handle
  /-- The handles of the intervals that are still open, the innermost first. -/
  openNow : List Handle

namespace Session

/-- A session in which nothing has happened. -/
def start (processClock : Bool) : Session := ⟨.new processClock, [], []⟩

/-- What a user has after an attempt to open an interval. -/
def afterPush (session : Session) (recorder : Recorder) : Except Fault Handle → Session
  | .ok handle => ⟨recorder, handle :: session.given, handle :: session.openNow⟩
  | .error _ => { session with recorder }

/-- What a user has after an attempt to close an interval, which stays open if it is refused. -/
def afterPop (session : Session) (recorder : Recorder) (handle : Handle) :
    Except (Stop CaptureError) Unit → Session
  | .ok () => { session with recorder, openNow := session.openNow.erase handle }
  | .error _ => { session with recorder }

/-- Open an interval. -/
def push (session : Session) (name : String) (frame : Bool) (now : Reading) : Session :=
  let (recorder, outcome) := session.recorder.push name frame now
  session.afterPush recorder outcome

/-- Close an interval. -/
def pop (session : Session) (handle : Handle) (now : Reading) : Session :=
  let (recorder, outcome) := session.recorder.pop handle now
  session.afterPop recorder handle outcome

@[simp] theorem afterPush_recorder (session : Session) (next : Recorder)
    (outcome : Except Fault Handle) : (session.afterPush next outcome).recorder = next := by
  cases outcome <;> rfl

@[simp] theorem afterPop_recorder (session : Session) (next : Recorder) (handle : Handle)
    (outcome : Except (Stop CaptureError) Unit) :
    (session.afterPop next handle outcome).recorder = next := by
  cases outcome <;> rfl

/-- The sessions to which pushes and pops lead, where every pop has a handle that it may have. -/
inductive Reached (may : Session → Handle → Prop) (processClock : Bool) : Session → Prop where
  | start : Reached may processClock (start processClock)
  | push {session : Session} (reached : Reached may processClock session) (name : String)
      (frame : Bool) (now : Reading) : Reached may processClock (session.push name frame now)
  | pop {session : Session} {handle : Handle} (reached : Reached may processClock session)
      (allowed : may session handle) (now : Reading) :
      Reached may processClock (session.pop handle now)

/-- The handle of one of the session's own intervals. -/
def Owns (session : Session) (handle : Handle) : Prop := handle ∈ session.given

/-- The handle of an interval that is still open. -/
def IsOpen (session : Session) (handle : Handle) : Prop := handle ∈ session.openNow

instance (session : Session) (handle : Handle) : Decidable (session.Owns handle) :=
  inferInstanceAs (Decidable (handle ∈ session.given))

instance (session : Session) (handle : Handle) : Decidable (session.IsOpen handle) :=
  inferInstanceAs (Decidable (handle ∈ session.openNow))

section Invariant

open Recorder (Opens Closes)

variable {may : Session → Handle → Prop} {processClock : Bool} {session : Session}

/-- A property that every outcome of a push and every outcome of a pop without a violation keep
is true of all sessions without violations. -/
theorem Reached.invariant {good : Session → Prop} (reached : Reached may processClock session)
    (started : good (Session.start processClock))
    (opened : ∀ (session : Session) (name : String) (frame : Bool) (now : Reading)
      (next : Recorder) (outcome : Except Fault Handle), good session →
      Opens session.recorder (session.recorder.opening name frame now) next outcome →
      next.processClock = session.recorder.processClock → good (session.afterPush next outcome))
    (closed : ∀ (session : Session) (handle : Handle) (now : Reading) (next : Recorder)
      (outcome : Except (Stop CaptureError) Unit), good session → may session handle →
      Closes session.recorder handle now next outcome → next.poisoned = false →
      next.processClock = session.recorder.processClock →
      good (session.afterPop next handle outcome)) :
    session.recorder.Live ∧ (session.recorder.poisoned = false → good session) := by
  induction reached with
  | start => exact ⟨Recorder.live_new processClock, fun _ => started⟩
  | push _ name frame now inductionHypothesis =>
      obtain ⟨live, holds⟩ := inductionHypothesis
      obtain ⟨nextLive, opens⟩ := Recorder.push_opens live name frame now
      rw [Session.push, afterPush_recorder]
      refine ⟨nextLive, fun healthy => ?_⟩
      rw [opens.poisoned_eq] at healthy
      exact opened _ name frame now _ _ (holds healthy) opens
        (Recorder.push_processClock _ name frame now)
  | pop _ allowed now inductionHypothesis =>
      obtain ⟨live, holds⟩ := inductionHypothesis
      obtain ⟨nextLive, closes⟩ := Recorder.pop_closes live _ now
      rw [Session.pop, afterPop_recorder]
      refine ⟨nextLive, fun healthy => ?_⟩
      exact closed _ _ now _ _ (holds (closes.healthy healthy)) allowed closes healthy
        (Recorder.pop_processClock _ _ now)

end Invariant

end Session

end CallProfiler.Capture
