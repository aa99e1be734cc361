import CallProfiler.CallTree.Basic
import CallProfiler.Calibration

/-!
# Mitigation

Recording costs time, and a calibration says how much. Mitigation takes that cost off every
node, children first: what the node's own calls lost to their bookkeeping and what its
children's calls added to it. A node never falls below the sum of its children, and a node that
was mitigated before is left alone. A sum that leaves its width ends the walk; the nodes
reached before it stay mitigated.
-/

namespace CallProfiler

namespace Node

/-- Take the cost of recording off a node whose children are mitigated. -/
def mitigate (calibration : Calibration) (children : Forest Node) (node : Node) :
    Except Fault Node :=
  if node.mitigated then .ok node
  else do
    let calls ← children.calls
    let cost ← Checked.add 64 (calibration.selfOverhead node.count)
      (calibration.childrenOverhead calls)
    let floor ← children.realtime
    return { node with realtime := max (node.realtime - cost) floor, mitigated := true }

end Node

namespace Forest

/-- Mitigate every node, children first, up to the first fault. -/
def mitigate (calibration : Calibration) : Forest Node → Forest Node × Option Fault
  | .nil => (.nil, none)
  | .node label children siblings =>
    match mitigate calibration children with
    | (children, some reached) => (.node label children siblings, some reached)
    | (children, none) =>
      match label.mitigate calibration children with
      | .error reached => (.node label children siblings, some reached)
      | .ok label =>
        let (siblings, reached?) := mitigate calibration siblings
        (.node label children siblings, reached?)

end Forest

namespace CallTree

/-- Mitigate a tree as far as sums allow, and say which fault ended it, if one did. -/
def mitigate (calibration : Calibration) (tree : CallTree) : CallTree × Option Fault :=
  if calibration.isCalibrated then
    match Forest.mitigate calibration tree.children with
    | (children, some reached) => ({ tree with children }, some reached)
    | (children, none) =>
      match { tree with children }.withRootTotals with
      | .error reached => ({ tree with children }, some reached)
      | .ok totalled => (totalled, none)
  else (tree, none)

/-- The mitigated tree, where no sum leaves its width. -/
def mitigated (calibration : Calibration) (tree : CallTree) : Except Fault CallTree :=
  match tree.mitigate calibration with
  | (tree, none) => .ok tree
  | (_, some reached) => .error reached

end CallTree

end CallProfiler
