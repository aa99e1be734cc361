import CallProfiler.Fault

/-!
# Failures of a command

A failure is a chain of messages: what could not be done, then why, then why that. It is shown
on one line, or as a list of causes below the first message.
-/

namespace CallProfiler.Command

/-- What could not be done, and the causes, the nearest first. -/
structure Failure where
  message : String
  causes : List String
deriving DecidableEq, Repr

namespace Failure

/-- A failure without a cause of its own. -/
def plain (message : String) : Failure := ⟨message, []⟩

/-- The chain on one line. -/
def line (failure : Failure) : String :=
  ": ".intercalate (failure.message :: failure.causes)

/-- A cause under a margin that is kept on all of its lines. -/
def indented (first later : String) (cause : String) : String :=
  first ++ ("\n" ++ later).intercalate (cause.splitOn "\n")

/-- A numbered cause on lines of its own. -/
def numbered (number : Nat) (cause : String) : String :=
  let digits := toString number
  let margin := String.ofList (List.replicate (5 - digits.length) ' ')
  indented (margin ++ digits ++ ": ") "       " cause

/-- The chain as a list; causes are numbered where there are several. -/
def listing (failure : Failure) : String :=
  let causes := match failure.causes with
    | [cause] => [indented "    " "    " cause]
    | causes => causes.zipIdx.map fun (cause, index) => numbered index cause
  if causes.isEmpty then failure.message
  else "\n".intercalate ([failure.message, "", "Caused by:"] ++ causes)

end Failure

end CallProfiler.Command
