import CallProfiler.CallTree.Basic
import CallProfiler.CallTree.Error

/-!
# Merging siblings

Of siblings with one name only the first remains, and the others are absorbed into it: their
totals are added and their children join its children, which are merged in turn. Siblings
keep the order in which their names first occur.
-/

namespace CallProfiler

namespace Node

/-- Add the totals of a sibling. -/
def absorb (survivor absorbed : Node) : Except Fault Node := do
  let realtime ← Checked.add 64 survivor.realtime absorbed.realtime
  let cpu ← Checked.add 64 survivor.cpu absorbed.cpu
  let count ← Checked.add 64 survivor.count absorbed.count
  let removedCalls ← Checked.add 64 survivor.removedCalls absorbed.removedCalls
  let recursions ← Checked.add 32 survivor.recursions absorbed.recursions
  return { survivor with
    realtime, cpu, count, removedCalls, recursions
    mitigated := survivor.mitigated && absorbed.mitigated }

/-- Whether a node still is what a single event made it. -/
def isSingle (node : Node) : Bool :=
  node.count == 1 && node.recursions == 0 && node.removedCalls == 0

/-- Add the totals of a sibling that is a single record; refuse any other. -/
def absorbSingle (survivor absorbed : Node) : Except (Stop AnalysisError) Node :=
  if absorbed.isSingle then Stop.ofFault (survivor.absorb absorbed)
  else refuse (.mergeInvariant absorbed.name)

end Node

namespace Forest

/-- Whether a node bears a name. -/
def named (name : String) (node : Node) : Bool := node.name == name

/-- Merge the trees of a forest, one after the other, into a forest without namesakes. -/
def mergeInto {ε : Type} (combine : Node → Node → Except ε Node) (merged : Forest Node) :
    Forest Node → Except ε (Forest Node)
  | .nil => .ok merged
  | .node label children siblings =>
    match merged.find? (named label.name) with
    | none => do
      let children ← mergeInto combine .nil children
      mergeInto combine (merged.append (.node label children .nil)) siblings
    | some (survivor, kept) => do
      let label' ← combine survivor label
      let children ← mergeInto combine kept children
      mergeInto combine (replace (named label.name) label' children merged) siblings

end Forest

namespace CallTree

/-- Merge same-named siblings at every level. -/
def mergeSiblings (tree : CallTree) : Except Fault CallTree := do
  let children ← Forest.mergeInto Node.absorb .nil tree.children
  return { tree with children }

/-- Merge same-named siblings of which all but the first are single records. -/
def mergeSiblingsStrict (tree : CallTree) : Except (Stop AnalysisError) CallTree := do
  let children ← Forest.mergeInto Node.absorbSingle .nil tree.children
  return { tree with children }

end CallTree

end CallProfiler
