import CallProfiler.Arena.Merge
import CallProfiler.CallTree.Build

/-!
# Building a call tree in an arena

Every event gets a slot of its own below the innermost open event that is one level above it.
Merging the namesakes among siblings then makes a call tree of the slots.
-/

namespace CallProfiler.Arena

/-- The slots of a path that stay open around a level. -/
def openAround (arena : Arena) (level : Int) (path : List Nat) : List Nat :=
  path.dropWhile fun id => level ≤ (arena.node id).level

/-- Give every event a slot, `path` holding the slots of the open events with the root's below
them, and refuse the first event that has no place on it or changes the clock. -/
def follow (arena : Arena) (path : List Nat) (index : Nat) :
    List Event → Except (Stop AnalysisError) Arena
  | [] => .ok arena
  | event :: rest => do
    let outer := arena.openAround event.level.toInt path
    match outer.head? with
    | none => refuse (.brokenEventList index event.name event.level)
    | some parent =>
      let below ← Checked.addSigned 32 (arena.node parent).level 1
      if event.level.toInt = below then
        if (arena.slot parent).parent.isSome && event.processClock &&
            !(arena.node parent).processClock then
          refuse (.clockKindChange (arena.name parent) event.name)
        else follow (arena.add (.ofEvent event) parent) (arena.size :: outer) (index + 1) rest
      else refuse (.brokenEventList index event.name event.level)

/-- Mark the root if a child makes frames; it then has to be the only child. -/
def markFrameThread (arena : Arena) : Except AnalysisError Arena :=
  let children := (arena.slot rootId).children
  if children.any fun child => (arena.node child).frame then
    if children.length > 1 then .error (.multipleFrameEntryPoints children.length)
    else .ok (arena.change rootId fun root => root.hold { root.node with frame := true })
  else .ok arena

/-- The call tree of one thread's events in push order. -/
def build (events : List Event) : Except (Stop AnalysisError) Arena := do
  let raw ← empty.follow [rootId] 0 events
  let merged ← raw.mergeSiblingsStrict
  let totalled ← merged.withRootTotals
  totalled.markFrameThread.mapError .refused

end CallProfiler.Arena
