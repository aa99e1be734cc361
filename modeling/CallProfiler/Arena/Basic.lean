import CallProfiler.CallTree.Basic

/-!
# Call trees in an arena

An arena keeps the nodes of a call tree in numbered slots that refer to each other by number: a
slot knows its parent and lists its children. The operations on a tree rewire these numbers in
place. The root of the tree has the first slot. A slot is never given back: one that has left the
tree stays behind, with nothing above it and nothing below.
-/

namespace CallProfiler

/-- A node, with the numbers of its parent and of its children in order. -/
structure Slot where
  node : Node
  parent : Option Nat
  children : List Nat
deriving DecidableEq, Repr

namespace Slot

/-- What is left where a node has gone into another one; also what a root begins as. -/
def vacant : Slot := ⟨.root, none, []⟩

/-- Hang a slot below another parent. -/
def moveTo (parent : Nat) (slot : Slot) : Slot := { slot with parent := some parent }

/-- List more children behind those of a slot. -/
def adopt (added : List Nat) (slot : Slot) : Slot :=
  { slot with children := slot.children ++ added }

/-- Put another node in the place of a slot's node. -/
def hold (node : Node) (slot : Slot) : Slot := { slot with node }

end Slot

/-- Numbered slots, of which the first one is the root's. -/
structure Arena where
  slots : Array Slot
deriving DecidableEq, Repr

namespace Arena

/-- The tree without calls. -/
def empty : Arena := ⟨#[.vacant]⟩

/-- The number of slots, those included that have left the tree. -/
def size (arena : Arena) : Nat := arena.slots.size

/-- The slot of a number; a number that was never given out stands for a vacant one. -/
def slot (arena : Arena) (id : Nat) : Slot := arena.slots.getD id .vacant

def node (arena : Arena) (id : Nat) : Node := (arena.slot id).node

def name (arena : Arena) (id : Nat) : String := (arena.node id).name

/-- The number of the root's slot. -/
def rootId : Nat := 0

/-- Change one slot. -/
def change (arena : Arena) (id : Nat) (update : Slot → Slot) : Arena :=
  ⟨arena.slots.modify id update⟩

/-- Change several slots in the same way. -/
def changeAll (arena : Arena) (ids : List Nat) (update : Slot → Slot) : Arena :=
  ids.foldl (fun changed id => changed.change id update) arena

/-- Put a node into a new slot, as the last child of its parent. The number of the slot is the
size of the arena before. -/
def add (arena : Arena) (node : Node) (parent : Nat) : Arena :=
  ⟨(arena.change parent (.adopt [arena.size])).slots.push ⟨node, some parent, []⟩⟩

/-- The sum of a quantity over the children of a slot. -/
def overChildren (arena : Arena) (quantity : Node → Nat) (id : Nat) : Except Fault Nat :=
  Checked.sum 64 ((arena.slot id).children.map fun child => quantity (arena.node child))

/-- Elapsed time of a slot that no child accounts for. -/
def exclusive (arena : Arena) (id : Nat) : Except Fault Nat := do
  let inside ← arena.overChildren (·.realtime) id
  return (arena.node id).realtime - inside

/-- Set the root's times to the sums over its children. -/
def withRootTotals (arena : Arena) : Except Fault Arena := do
  let realtime ← arena.overChildren (·.realtime) rootId
  let cpu ← arena.overChildren (·.cpu) rootId
  return arena.change rootId fun root => root.hold { root.node with realtime, cpu }

/-! ## Walks -/

/-- The slots that come off a stack until it is empty, each putting its own successors on top. A
walk over a tree meets no slot twice, so as many steps as there are slots are enough. -/
def walk (successors : Nat → List Nat) : Nat → List Nat → List Nat
  | 0, _ => []
  | _, [] => []
  | steps + 1, id :: pending => id :: walk successors steps (successors id ++ pending)

/-- Parents before their children. -/
def preorder (arena : Arena) : List Nat :=
  walk (fun id => (arena.slot id).children) arena.size [rootId]

/-- Children before their parents: the same walk with the last child first, told backwards. -/
def postorder (arena : Arena) : List Nat :=
  (walk (fun id => (arena.slot id).children.reverse) arena.size [rootId]).reverse

/-- The slots above a slot, nearest first, as far as a number of steps leads. -/
def above (arena : Arena) : Nat → Nat → List Nat
  | 0, _ => []
  | steps + 1, id =>
    match (arena.slot id).parent with
    | none => []
    | some parent => parent :: arena.above steps parent

/-- The strict ancestors of a slot, nearest first. -/
def ancestors (arena : Arena) (id : Nat) : List Nat := arena.above arena.size id

/-! ## Reading and changing slots -/

variable {arena : Arena} {id other : Nat} {update : Slot → Slot}

theorem slot_of_size_le (unused : arena.size ≤ id) : arena.slot id = .vacant := by
  rw [slot, Array.getD_eq_getD_getElem?, Array.getElem?_eq_none unused]
  rfl

@[simp] theorem size_change (arena : Arena) (id : Nat) (update : Slot → Slot) :
    (arena.change id update).size = arena.size :=
  Array.size_modify

theorem slot_change_self (inside : id < arena.size) :
    (arena.change id update).slot id = update (arena.slot id) := by
  have present : arena.slots[id]? = some arena.slots[id] := Array.getElem?_eq_getElem inside
  simp [slot, change, Array.getElem?_modify, present]

theorem slot_change_of_ne (apart : id ≠ other) :
    (arena.change other update).slot id = arena.slot id := by
  simp [slot, change, Array.getElem?_modify, apart.symm]

/-- Changing a slot to what it is changes nothing. -/
theorem change_eq_self (same : update (arena.slot id) = arena.slot id) :
    arena.change id update = arena := by
  obtain ⟨slots⟩ := arena
  refine congrArg Arena.mk (Array.ext Array.size_modify fun place inside known => ?_)
  rw [Array.getElem_modify]
  split
  · subst id
    simpa [slot, known] using same
  · rfl

@[simp] theorem size_changeAll (arena : Arena) (ids : List Nat) (update : Slot → Slot) :
    (arena.changeAll ids update).size = arena.size := by
  induction ids generalizing arena with
  | nil => rfl
  | cons id rest inductionHypothesis =>
      exact (inductionHypothesis (arena.change id update)).trans (size_change arena id update)

theorem slot_changeAll_of_not_mem {ids : List Nat} (absent : id ∉ ids) :
    (arena.changeAll ids update).slot id = arena.slot id := by
  induction ids generalizing arena with
  | nil => rfl
  | cons first rest inductionHypothesis =>
      rw [List.mem_cons, not_or] at absent
      obtain ⟨apart, later⟩ := absent
      exact (inductionHypothesis later).trans (slot_change_of_ne apart)

theorem slot_changeAll_of_mem {ids : List Nat} (distinct : ids.Nodup) (member : id ∈ ids)
    (inside : id < arena.size) : (arena.changeAll ids update).slot id = update (arena.slot id) := by
  induction ids generalizing arena with
  | nil => cases member
  | cons first rest inductionHypothesis =>
      obtain ⟨fresh, distinctRest⟩ := List.nodup_cons.1 distinct
      rcases List.mem_cons.1 member with rfl | later
      · exact (slot_changeAll_of_not_mem fresh).trans (slot_change_self inside)
      · have apart : id ≠ first := fun same => fresh (same ▸ later)
        have next := @inductionHypothesis (arena.change first update) distinctRest later
          (by simpa using inside)
        rwa [slot_change_of_ne apart] at next

@[simp] theorem size_add (arena : Arena) (node : Node) (parent : Nat) :
    (arena.add node parent).size = arena.size + 1 := by
  rw [add, size, Array.size_push]
  exact congrArg (· + 1) (size_change arena parent _)

theorem slot_add_new (arena : Arena) (node : Node) (parent : Nat) :
    (arena.add node parent).slot arena.size = ⟨node, some parent, []⟩ := by
  have last : (arena.change parent (.adopt [arena.size])).slots.size = arena.size :=
    size_change arena parent _
  rw [slot, add, Array.getD_eq_getD_getElem?, Array.getElem?_push, if_pos last.symm]
  rfl

theorem slot_add_of_lt (inside : id < arena.size) {node : Node} {parent : Nat} :
    (arena.add node parent).slot id = (arena.change parent (.adopt [arena.size])).slot id := by
  have last : (arena.change parent (.adopt [arena.size])).slots.size = arena.size :=
    size_change arena parent _
  simp [slot, add, Array.getElem?_push, last, Nat.ne_of_lt inside]

end Arena

end CallProfiler
