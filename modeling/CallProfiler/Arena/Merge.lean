import CallProfiler.Arena.Basic
import CallProfiler.CallTree.Merge

/-!
# Merging siblings in an arena

A walk from the root looks at the children of one slot at a time. Those that repeat a name are
planned to go into the first of that name, and are then absorbed: their children hang below the
survivor from then on, so new namesakes are met when the walk comes to the survivor.
-/

namespace CallProfiler.Arena

/-- Go through children from left to right, `kept` being those that stay so far: which of them
stay, and which one goes into which. -/
def planFolds (arena : Arena) (kept : List Nat) : List Nat → List Nat × List (Nat × Nat)
  | [] => (kept, [])
  | child :: rest =>
    match kept.find? fun other => arena.name other == arena.name child with
    | some survivor =>
      let (remaining, folds) := arena.planFolds kept rest
      (remaining, (survivor, child) :: folds)
    | none => arena.planFolds (kept ++ [child]) rest

variable {ε : Type}

/-- Empty a slot into another one: its totals are added there, and its children move over. -/
def absorb (combine : Node → Node → Except ε Node) (arena : Arena) (fold : Nat × Nat) :
    Except ε Arena := do
  let (survivor, absorbed) := fold
  let emptied := arena.change absorbed fun _ => .vacant
  let children := (arena.slot absorbed).children
  let moved := emptied.changeAll children (.moveTo survivor)
  let node ← combine (moved.node survivor) (arena.node absorbed)
  return moved.change survivor fun slot => (slot.hold node).adopt children

/-- Merge the children of one slot, once all that would be absorbed are admitted. -/
def mergeChildren (permit : Node → Except ε Unit) (combine : Node → Node → Except ε Node)
    (arena : Arena) (id : Nat) : Except ε Arena := do
  let (kept, folds) := arena.planFolds [] (arena.slot id).children
  folds.forM fun fold => permit (arena.node fold.2)
  folds.foldlM (absorb combine) (arena.change id fun slot => { slot with children := kept })

/-- Merge below the slots of a stack until it is empty, as far as a number of steps leads. -/
def mergeFrom (permit : Node → Except ε Unit) (combine : Node → Node → Except ε Node) :
    Nat → List Nat → Arena → Except ε Arena
  | 0, _, arena => .ok arena
  | _, [], arena => .ok arena
  | steps + 1, id :: pending, arena => do
    let merged ← arena.mergeChildren permit combine id
    mergeFrom permit combine steps ((merged.slot id).children ++ pending) merged

/-- Merge same-named siblings at every level. -/
def mergeSiblings (arena : Arena) : Except Fault Arena :=
  mergeFrom (fun _ => .ok ()) Node.absorb arena.size [rootId] arena

/-- Admit a node that still is what a single event made it. -/
def admitSingle (node : Node) : Except (Stop AnalysisError) Unit :=
  if node.isSingle then .ok () else refuse (.mergeInvariant node.name)

/-- Merge same-named siblings of which all but the first are single records. -/
def mergeSiblingsStrict (arena : Arena) : Except (Stop AnalysisError) Arena :=
  mergeFrom admitSingle (fun survivor absorbed => Stop.ofFault (survivor.absorb absorbed))
    arena.size [rootId] arena

end CallProfiler.Arena
