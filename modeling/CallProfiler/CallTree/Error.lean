/-!
# Refusals of an analysis

What can be wrong with the events of one thread, and the wording of each.
-/

namespace CallProfiler

/-- Why the events of a thread give no profile. -/
inductive AnalysisError where
  /-- An event is more than one level below the event before it, or above the outermost. -/
  | brokenEventList (index : Nat) (name : String) (level : Int32)
  /-- A call timed by the process clock lies in a call timed by the thread clock. -/
  | clockKindChange (parent name : String)
  /-- A merge that expects single records met a node that already holds several. -/
  | mergeInvariant (name : String)
  /-- A frame thread makes calls beside its frames. -/
  | multipleFrameEntryPoints (count : Nat)
  /-- Statistics met a call inside a call of the same name. -/
  | recursionDetected (name : String)
deriving DecidableEq, Repr

/-- The wording of a refusal. -/
def AnalysisError.message : AnalysisError → String
  | .brokenEventList index name level =>
    s!"broken event list: record #{index} '{name}' at stack level {level}"
  | .clockKindChange parent name =>
    s!"stack level increase under '{parent}' changed the counter from thread time to " ++
      s!"process time at '{name}'"
  | .mergeInvariant name => s!"strict merge absorbed an already accumulated node '{name}'"
  | .multipleFrameEntryPoints count =>
    s!"frame thread must have only one entry point, found {count}"
  | .recursionDetected name =>
    s!"recursion detected on statistics collection stage: '{name}'"

end CallProfiler
