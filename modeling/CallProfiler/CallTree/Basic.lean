import CallProfiler.Fault
import CallProfiler.Forest

/-!
# Call trees

A call tree has a node for every call path of one thread. A node holds the totals of the calls
made along its path. The root stands for the whole thread: it makes no calls of its own, and
its times are the sums of its children's times.
-/

namespace CallProfiler

/-- The totals of one call path. -/
structure Node where
  name : String
  /-- Number of calls around this one; the root is one level above the outermost calls. -/
  level : Int
  frame : Bool
  processClock : Bool
  /-- Elapsed time of all calls of the path, the calls inside them included. -/
  realtime : Nat
  cpu : Nat
  /-- Calls added up in this node, those of collapsed recursion included. -/
  count : Nat
  /-- The part of `count` that came from collapsed recursive calls. -/
  removedCalls : Nat
  /-- Recursive call paths folded into this node. -/
  recursions : Nat
  /-- The cost of recording has been taken off already. -/
  mitigated : Bool
deriving DecidableEq, Repr

namespace Node

/-- The name that every root has. -/
def rootName : String := "<root>"

/-- The node above all calls of a thread. -/
def root : Node where
  name := rootName
  level := -1
  frame := false
  processClock := false
  realtime := 0
  cpu := 0
  count := 1
  removedCalls := 0
  recursions := 0
  mitigated := false

/-- Calls made at this place of the tree itself. -/
def ownCalls (node : Node) : Except Fault Nat := Checked.subtract node.count node.removedCalls

/-- Mean elapsed time of a call. -/
def averageRealtime (node : Node) : Nat := node.realtime / max node.count 1

end Node

namespace Forest

/-- Elapsed time of the outermost trees. -/
def realtime (forest : Forest Node) : Except Fault Nat :=
  Checked.sum 64 (forest.tops.map (·.realtime))

/-- CPU time of the outermost trees. -/
def cpu (forest : Forest Node) : Except Fault Nat :=
  Checked.sum 64 (forest.tops.map (·.cpu))

/-- Calls added up in the outermost trees. -/
def calls (forest : Forest Node) : Except Fault Nat :=
  Checked.sum 64 (forest.tops.map (·.count))

end Forest

/-- The calls of one thread. -/
structure CallTree where
  root : Node
  children : Forest Node
deriving DecidableEq, Repr

namespace CallTree

/-- The tree as a forest that has the root as its only outermost tree. -/
def whole (tree : CallTree) : Forest Node := .node tree.root tree.children .nil

/-- All nodes, the root first. -/
def preorder (tree : CallTree) : List Node := tree.whole.preorder

/-- The number of nodes. -/
def size (tree : CallTree) : Nat := tree.whole.size

/-- Whether the thread made no call. -/
def isEmpty (tree : CallTree) : Bool := tree.children.isEmpty

/-- The deepest level of any node. -/
def maxLevel (tree : CallTree) : Int := (tree.preorder.map (·.level)).foldl max (-1)

/-- The call that makes the frames, where the thread is a frame thread. -/
def frameNode? (tree : CallTree) : Option Node :=
  if tree.root.frame then tree.children.tops.head? else none

/-- Set the root's times to the sums over its children. -/
def withRootTotals (tree : CallTree) : Except Fault CallTree := do
  let realtime ← tree.children.realtime
  let cpu ← tree.children.cpu
  return { tree with root := { tree.root with realtime, cpu } }

end CallTree

end CallProfiler
