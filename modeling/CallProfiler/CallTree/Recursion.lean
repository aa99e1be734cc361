import CallProfiler.CallTree.Merge

/-!
# Recursion

A node is recursive if a call around it, the root apart, has its name. Collapsing folds each
such node into the nearest namesake around it: its calls are counted there as removed calls,
its children become the namesake's children, and its exclusive time is taken off the nodes
between the two. Nodes that became siblings and share a name are then merged.
-/

namespace CallProfiler

/-- A recursive node on its way to the namesake that takes it in. -/
structure Folded where
  name : String
  /-- Time not spent in children. -/
  exclusive : Nat
  calls : Nat
  recursions : Nat
  children : Forest Node
deriving DecidableEq, Repr

namespace Node

/-- Count the calls of a folded namesake as removed calls. -/
def takeIn (node : Node) (folded : Folded) : Except Fault Node := do
  let count ← Checked.add 64 node.count folded.calls
  let removedCalls ← Checked.add 64 node.removedCalls folded.calls
  let deeper ← Checked.add 32 1 folded.recursions
  let recursions ← Checked.add 32 node.recursions deeper
  return { node with count, removedCalls, recursions }

/-- Take the exclusive times of nodes that pass upwards off a node between. -/
def letPass (node : Node) (passing : List Folded) : Node :=
  { node with realtime := node.realtime - Checked.total (passing.map (·.exclusive)) }

end Node

namespace Forest

/-- Whether some node has the name of a node above it, `above` being the names around. -/
def isRecursive (above : List String) : Forest Node → Bool
  | .nil => false
  | .node label children siblings =>
    above.contains label.name || isRecursive (label.name :: above) children ||
      isRecursive above siblings

/-- Take the recursive nodes out of a forest and into their namesakes. The result holds what
remains and those nodes whose namesakes lie outside of the forest, in postorder. -/
def foldRecursion (above : List String) :
    Forest Node → Except Fault (Forest Node × List Folded)
  | .nil => .ok (.nil, [])
  | .node label children siblings => do
    let (remaining, folded) ← foldRecursion (label.name :: above) children
    let (own, passing) := folded.partition (·.name == label.name)
    let node ← own.foldlM Node.takeIn (label.letPass passing)
    let children := own.foldl (fun grown namesake => grown.append namesake.children) remaining
    if above.contains label.name then
      let inside ← children.realtime
      let (siblings, later) ← foldRecursion above siblings
      let leaving : Folded :=
        ⟨node.name, node.realtime - inside, node.count, node.recursions, children⟩
      return (siblings, passing ++ leaving :: later)
    else
      let (siblings, later) ← foldRecursion above siblings
      return (.node node children siblings, passing ++ later)

/-- Set every level to the node's depth, the outermost trees being at `level`. -/
def renumber (level : Int) : Forest Node → Forest Node
  | .nil => .nil
  | .node label children siblings =>
    .node { label with level } (renumber (level + 1) children) (renumber level siblings)

end Forest

namespace CallTree

/-- The tree with every recursive call folded into its outermost namesake. -/
def collapseRecursion (tree : CallTree) : Except Fault CallTree :=
  if Forest.isRecursive [] tree.children then do
    let (remaining, _) ← Forest.foldRecursion [] tree.children
    { tree with children := Forest.renumber (tree.root.level + 1) remaining }.mergeSiblings
  else .ok tree

end CallTree

end CallProfiler
