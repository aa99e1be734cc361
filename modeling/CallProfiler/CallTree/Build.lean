import CallProfiler.CallTree.Merge
import CallProfiler.Event

/-!
# Call trees of event lists

Events arrive in push order, so an event's parent is the latest earlier event one level above
it. `OpenPath.follow` keeps the stack of open events along a list and refuses the first event
that has no place on it; `Forest.ofEvents` then nests what remains, and merging makes it a call
tree.
-/

namespace CallProfiler

/-- The node of a single event. -/
def Node.ofEvent (event : Event) : Node where
  name := event.name
  level := event.level.toInt
  frame := event.frame
  processClock := event.processClock
  realtime := event.duration
  cpu := event.cpu.toNat
  count := 1
  removedCalls := 0
  recursions := 0
  mitigated := false

/-- The events open around a place of an event list, innermost first. -/
abbrev OpenPath := List Event

namespace OpenPath

/-- The level of the innermost open event, or of the root where no event is open. -/
def level (path : OpenPath) : Int := path.head?.elim Node.root.level (·.level.toInt)

/-- Close all that is as deep as an event or deeper. The event has a place if it is one level
below what stays open then; an event that closes the root as well has none. -/
def settle (path : OpenPath) (level : Int32) : Except Fault (Option OpenPath) :=
  if level.toInt ≤ Node.root.level then .ok none
  else do
    let outer : OpenPath := path.dropWhile fun other => level.toInt ≤ other.level.toInt
    let below ← Checked.addSigned 32 outer.level 1
    return if level.toInt = below then some outer else none

/-- Follow the open events along a list, and refuse the first event that has no place or changes
the clock. -/
def follow (path : OpenPath) (index : Nat) : List Event → Except (Stop AnalysisError) Unit
  | [] => .ok ()
  | event :: rest => do
    match ← path.settle event.level with
    | none => refuse (.brokenEventList index event.name event.level)
    | some outer =>
      match outer.head? with
      | none => follow (event :: outer) (index + 1) rest
      | some parent =>
        if event.processClock && !parent.processClock then
          refuse (.clockKindChange parent.name event.name)
        else follow (event :: outer) (index + 1) rest

end OpenPath

namespace Forest

/-- Put a node before a forest; the trees that are deeper than it become its children. -/
def plant (node : Node) (following : Forest Node) : Forest Node :=
  let (children, siblings) := following.span fun other => node.level < other.level
  .node node children siblings

/-- The nesting of an event list, every event a node of its own. -/
def ofEvents (events : List Event) : Forest Node :=
  events.foldr (fun event following => plant (.ofEvent event) following) .nil

end Forest

namespace CallTree

/-- Mark the root if a child makes frames; it then has to be the only child. -/
def markFrameThread (tree : CallTree) : Except AnalysisError CallTree :=
  let children := tree.children.tops
  if children.any (·.frame) then
    if children.length > 1 then .error (.multipleFrameEntryPoints children.length)
    else .ok { tree with root := { tree.root with frame := true } }
  else .ok tree

/-- The call tree of one thread's events in push order. -/
def build (events : List Event) : Except (Stop AnalysisError) CallTree := do
  OpenPath.follow [] 0 events
  let raw : CallTree := ⟨.root, .ofEvents events⟩
  let merged ← raw.mergeSiblingsStrict
  let totalled ← merged.withRootTotals
  totalled.markFrameThread.mapError .refused

end CallTree

end CallProfiler
