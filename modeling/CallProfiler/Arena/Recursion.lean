import CallProfiler.Arena.Merge
import CallProfiler.CallTree.Recursion

/-!
# Recursion in an arena

Collapsing works on a copy of a tree, whose slots are numbered anew. Every slot with a namesake
above it is folded into the nearest one: its exclusive time is taken off the slots between, its
calls are counted and its children are listed in the namesake, and the slot itself is cut off.
Only where something was folded are levels numbered and siblings merged again.
-/

namespace CallProfiler.Arena

/-- Copy the slots of a stack and all below them, each under its new parent, as far as a number of
steps leads. -/
def copyFrom (source : Arena) : Nat → List (Nat × Nat) → Arena → Arena
  | 0, _, copy => copy
  | _, [], copy => copy
  | steps + 1, (id, parent) :: pending, copy =>
    let children := (source.slot id).children.map fun child => (child, copy.size)
    source.copyFrom steps (children ++ pending) (copy.add (source.node id) parent)

/-- The tree in slots of its own, numbered in preorder. -/
def deepCopy (arena : Arena) : Arena :=
  let root := arena.slot rootId
  arena.copyFrom arena.size (root.children.map fun child => (child, rootId))
    ⟨#[{ root with children := [] }]⟩

/-- A slot on its way into a namesake. Its children are moved by their numbers. -/
def folded (arena : Arena) (id exclusive : Nat) : Folded :=
  let node := arena.node id
  ⟨node.name, exclusive, node.count, node.recursions, .nil⟩

/-- Cut a slot off and give its calls and children to a namesake. -/
def foldInto (arena : Arena) (id target exclusive : Nat) : Except Fault Arena := do
  let slot := arena.slot id
  let unlisted := match slot.parent with
    | none => arena
    | some parent => arena.change parent fun outer =>
      { outer with children := outer.children.filter (· != id) }
  let moved := unlisted.changeAll slot.children (.moveTo target)
  let node ← (moved.node target).takeIn (arena.folded id exclusive)
  let grown := moved.change target fun outer => (outer.hold node).adopt slot.children
  return grown.change id fun cut => { cut with parent := none, children := [] }

/-- Fold a slot into the nearest namesake above it, if there is one below the root, and count
that it was folded. -/
def foldAt (state : Arena × Nat) (id : Nat) : Except Fault (Arena × Nat) :=
  let (arena, count) := state
  let around := (arena.ancestors id).takeWhile (· != rootId)
  let namesake := fun other => arena.name other == arena.name id
  match around.find? namesake with
  | none => .ok state
  | some target => do
    let exclusive ← arena.exclusive id
    let between := around.takeWhile fun other => !namesake other
    let passed := arena.changeAll between fun slot =>
      slot.hold (slot.node.letPass [arena.folded id exclusive])
    let next ← passed.foldInto id target exclusive
    return (next, count + 1)

/-- Set the level of a slot to one more than its parent's. The root's level stays as it is. -/
def numberAt (arena : Arena) (id : Nat) : Arena :=
  match (arena.slot id).parent with
  | none => arena
  | some parent =>
    let level := (arena.node parent).level + 1
    arena.change id fun slot => slot.hold { slot.node with level }

/-- Number the levels of all slots anew, parents before their children. -/
def renumber (arena : Arena) : Arena := arena.preorder.foldl numberAt arena

/-- A copy of the tree with every recursive call folded into its outermost namesake. -/
def collapseRecursion (arena : Arena) : Except Fault Arena := do
  let copy := arena.deepCopy
  let (collapsed, count) ← (copy.postorder.filter (· != rootId)).foldlM foldAt (copy, 0)
  if count > 0 then collapsed.renumber.mergeSiblings
  else return collapsed

end CallProfiler.Arena
