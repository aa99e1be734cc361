import CallProfiler.Proofs.Arena.Layout
import CallProfiler.Proofs.Walks

/-!
# Walks over an arena

A walk over an arena meets the slots of a tree in the order of the walk over its shape: the stack
always holds the trees that are still to come. The bound on the number of steps is never reached,
because a tree has no more nodes than its arena has slots. Going up from a slot leads through the
parents that the links name.
-/

namespace CallProfiler.Arena

variable {arena : Arena} {parent : Option Nat} {shape : Forest Nat} {forest : Forest Node}
  {tree : CallTree}

@[simp] theorem walk_nil (successors : Nat → List Nat) (steps : Nat) :
    walk successors steps [] = [] := by
  cases steps <;> rfl

/-- A walk that takes children in order goes through the trees on the stack in preorder. -/
theorem Holds.walk_tops (holds : arena.Holds parent shape forest) (steps : Nat)
    (pending : List Nat) :
    walk (fun id => (arena.slot id).children) (shape.size + steps) (shape.tops ++ pending) =
      shape.preorder ++ walk (fun id => (arena.slot id).children) steps pending := by
  induction holds generalizing steps pending with
  | nil => rw [Forest.size, Nat.zero_add]; rfl
  | @node parent id label inner later children siblings inside slot below beside belowHypothesis
      besideHypothesis =>
      have count : (Forest.node id inner later).size + steps =
          inner.size + (later.size + steps) + 1 := by
        rw [Forest.size]
        omega
      rw [count, Forest.tops, List.cons_append, walk, slot, belowHypothesis, besideHypothesis,
        Forest.preorder, List.cons_append, List.append_assoc]

/-- A walk that takes the last child first goes through the trees on the stack in postorder, told
backwards. -/
theorem Holds.walk_tops_reverse (holds : arena.Holds parent shape forest) (steps : Nat)
    (pending : List Nat) :
    walk (fun id => (arena.slot id).children.reverse) (shape.size + steps)
        (shape.tops.reverse ++ pending) =
      shape.postorder.reverse ++
        walk (fun id => (arena.slot id).children.reverse) steps pending := by
  induction holds generalizing steps pending with
  | nil => rw [Forest.size, Nat.zero_add]; rfl
  | @node parent id label inner later children siblings inside slot below beside belowHypothesis
      besideHypothesis =>
      have count : (Forest.node id inner later).size + steps =
          later.size + (inner.size + steps + 1) := by
        rw [Forest.size]
        omega
      rw [count, Forest.tops, List.reverse_cons, List.append_assoc, besideHypothesis,
        List.singleton_append, walk, slot, belowHypothesis, Forest.postorder, List.reverse_append,
        List.reverse_cons, List.append_assoc, List.append_assoc, List.singleton_append]

theorem Lays.preorder_eq (lays : arena.Lays shape tree) :
    arena.preorder = rootId :: shape.preorder := by
  have walked := lays.holds.walk_tops (arena.size - (Forest.node rootId shape .nil).size) []
  rw [Nat.add_sub_of_le lays.size_le, walk_nil] at walked
  rw [Arena.preorder]
  simpa [Forest.tops, Forest.preorder] using walked

theorem Lays.postorder_eq (lays : arena.Lays shape tree) :
    arena.postorder = shape.postorder ++ [rootId] := by
  have walked := lays.holds.walk_tops_reverse
    (arena.size - (Forest.node rootId shape .nil).size) []
  rw [Nat.add_sub_of_le lays.size_le, walk_nil] at walked
  rw [Arena.postorder]
  simpa [Forest.tops, Forest.postorder] using congrArg List.reverse walked

/-- The root apart, the walk in postorder is the one over the shape below it. -/
theorem Lays.postorder_filter (lays : arena.Lays shape tree) :
    arena.postorder.filter (· != rootId) = shape.postorder := by
  have below : ∀ id ∈ shape.postorder, (id != rootId) = true := by
    intro id member
    have inShape := (Forest.postorder_perm_preorder shape).mem_iff.1 member
    exact bne_iff_ne.2 fun same => lays.rootId_not_mem (same ▸ inShape)
  rw [lays.postorder_eq, List.filter_append, List.filter_eq_self.2 below]
  simp

end CallProfiler.Arena
