import CallProfiler.CallTree.Basic
import CallProfiler.CallTree.Error

/-!
# Statistics

The totals of each function name over all places of a tree. They are only meaningful where no
call lies inside a call of the same name, so such a tree is refused. The list is ordered by
exclusive time, longest first, then by elapsed time, shortest first, then by first occurrence;
the entry of the whole thread comes last.
-/

namespace CallProfiler

/-- The totals of one function name. -/
structure FunctionStat where
  name : String
  /-- The shallowest level of the name; below zero for the whole thread. -/
  minLevel : Int
  realtime : Nat
  cpu : Nat
  childrenRealtime : Nat
  count : Nat
  recursions : Nat
  processClock : Bool
deriving DecidableEq, Repr

namespace FunctionStat

/-- Time not spent in children. -/
def exclusive (stat : FunctionStat) : Nat := stat.realtime - stat.childrenRealtime

/-- Mean elapsed time of a call. -/
def average (stat : FunctionStat) : Nat := stat.realtime / max stat.count 1

/-- Whether the entry stands for the whole thread. -/
def isThreadTotal (stat : FunctionStat) : Bool := stat.minLevel < 0

/-- The totals of one node. -/
def ofNode (node : Node) (children : Forest Node) : Except Fault FunctionStat := do
  let childrenRealtime ← children.realtime
  return {
    name := node.name
    minLevel := node.level
    realtime := node.realtime
    cpu := node.cpu
    childrenRealtime
    count := node.count
    recursions := node.recursions
    processClock := node.processClock }

/-- Add the totals of another node of the name. -/
def add (stat other : FunctionStat) : Except Fault FunctionStat := do
  let realtime ← Checked.add 64 stat.realtime other.realtime
  let cpu ← Checked.add 64 stat.cpu other.cpu
  let childrenRealtime ← Checked.add 64 stat.childrenRealtime other.childrenRealtime
  let count ← Checked.add 64 stat.count other.count
  let recursions ← Checked.add 32 stat.recursions other.recursions
  return {
    name := stat.name
    minLevel := min stat.minLevel other.minLevel
    realtime, cpu, childrenRealtime, count, recursions
    processClock := stat.processClock || other.processClock }

/-- Whether an entry may stand before another. -/
def rankedBefore (left right : FunctionStat) : Bool :=
  if left.isThreadTotal != right.isThreadTotal then right.isThreadTotal
  else if left.exclusive != right.exclusive then right.exclusive < left.exclusive
  else left.realtime ≤ right.realtime

/-- Add an entry to those collected so far, into the one of its name if there is one. -/
def collect (stat : FunctionStat) : List FunctionStat → Except Fault (List FunctionStat)
  | [] => .ok [stat]
  | held :: rest =>
    if held.name = stat.name then do
      let total ← held.add stat
      return total :: rest
    else do
      let rest ← collect stat rest
      return held :: rest

end FunctionStat

namespace CallTree

/-- The first node in preorder that has the name of a node above it, the root included. -/
def recursiveName? (tree : CallTree) : Option String :=
  let repeated := (tree.whole.ancestry []).find? fun (node, above) =>
    above.any (·.name == node.name)
  repeated.map (·.1.name)

/-- Refuse a tree in which a call lies inside a call of the same name. -/
def checkRecursion (tree : CallTree) : Except AnalysisError Unit :=
  match tree.recursiveName? with
  | none => .ok ()
  | some name => .error (.recursionDetected name)

/-- The totals of each name, in order of first occurrence. -/
def totalsByName (tree : CallTree) : Except Fault (List FunctionStat) :=
  tree.whole.entries.foldlM (fun stats (node, children) => do
    let stat ← FunctionStat.ofNode node children
    stat.collect stats) []

/-- The statistics of a tree without recursion. -/
def statistics (tree : CallTree) : Except (Stop AnalysisError) (List FunctionStat) := do
  tree.checkRecursion.mapError .refused
  let stats ← tree.totalsByName
  return stats.mergeSort FunctionStat.rankedBefore

end CallTree

end CallProfiler
