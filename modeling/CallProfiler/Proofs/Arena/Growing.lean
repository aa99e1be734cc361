import CallProfiler.Arena.Recursion
import CallProfiler.Proofs.Arena.Layout
import CallProfiler.Proofs.Walks

/-!
# Growing an arena

Nodes that are added one by one, each below its parent, come to lie in new slots that are numbered
in preorder. `Grows` says this of a whole forest; a copy of a tree grows from its root alone.
-/

namespace CallProfiler.Arena

variable {arena middle next : Arena} {parent id : Nat} {label : Node}
  {forest children siblings : Forest Node}

/-- A forest is added below a slot, in new slots numbered in preorder. -/
structure Grows (parent : Nat) (forest : Forest Node) (arena next : Arena) : Prop where
  size : next.size = arena.size + forest.size
  holds : next.Holds (some parent) (forest.places arena.size) forest
  listed : next.slot parent = (arena.slot parent).adopt (forest.places arena.size).tops
  others : ∀ id < arena.size, id ≠ parent → next.slot id = arena.slot id

namespace Grows

theorem nil (parent : Nat) (arena : Arena) : Grows parent .nil arena arena where
  size := rfl
  holds := .nil
  listed := by rw [Slot.adopt, Forest.places_nil, Forest.tops, List.append_nil]
  others _ _ _ := rfl

/-- Slots that were there keep their nodes. -/
theorem node_eq (grows : Grows parent forest arena next) (inside : id < arena.size) :
    next.node id = arena.node id := by
  by_cases same : id = parent
  · subst same
    rw [node, grows.listed]
    rfl
  · rw [node, grows.others id inside same]
    rfl

/-- A tree is added by adding its root, then its children below that, then its siblings. -/
theorem node (inside : parent < arena.size)
    (below : Grows arena.size children (arena.add label parent) middle)
    (beside : Grows parent siblings middle next) :
    Grows parent (.node label children siblings) arena next := by
  have newSize : middle.size = arena.size + 1 + children.size := by
    rw [below.size, size_add]
  have nextSize : next.size = arena.size + 1 + children.size + siblings.size := by
    rw [beside.size, newSize]
  have parentSlot : (arena.add label parent).slot parent =
      (arena.slot parent).adopt [arena.size] := by
    rw [slot_add_of_lt inside, slot_change_self inside]
  have newSlot : next.slot arena.size =
      ⟨label, some parent, (children.places (arena.size + 1)).tops⟩ := by
    rw [beside.others _ (by omega) (Nat.ne_of_gt inside), below.listed, slot_add_new, size_add]
    rfl
  have held := below.holds
  rw [size_add] at held
  constructor
  case size =>
    rw [nextSize, Forest.size]
    omega
  case holds =>
    rw [Forest.places_node]
    refine .node (by omega) newSlot (held.congr (by omega) fun id member => ?_) ?_
    · obtain ⟨least, most⟩ := Forest.mem_preorder_places.1 member
      exact beside.others id (by omega) (by omega)
    · have heldBeside := beside.holds
      rwa [newSize] at heldBeside
  case listed =>
    rw [beside.listed, below.others parent (by rw [size_add]; omega) (Nat.ne_of_lt inside),
      parentSlot, newSize]
    simp [Slot.adopt, Forest.tops]
  case others =>
    intro id known apart
    rw [beside.others id (by omega) apart, below.others id (by rw [size_add]; omega) (by omega),
      slot_add_of_lt known, slot_change_of_ne apart]

/-- An arena that grows from a root alone lays out what was added. -/
theorem lays {root : Node} (grows : Grows rootId forest ⟨#[⟨root, none, []⟩]⟩ next) :
    next.Lays (forest.places 1) ⟨root, forest⟩ where
  holds := by
    refine .node ?_ ?_ grows.holds .nil
    · rw [grows.size]
      exact Nat.lt_add_right _ (Nat.zero_lt_one)
    · rw [grows.listed]
      rfl
  distinct := by
    rw [List.nodup_cons, Forest.mem_preorder_places, Forest.preorder_places]
    exact ⟨fun numbered => absurd numbered.1 (Nat.not_succ_le_zero 0), List.nodup_range'⟩
  cutOff := by
    intro id outside
    have unused : next.size ≤ id := by
      rw [List.mem_cons, Forest.mem_preorder_places, not_or] at outside
      rw [grows.size]
      show 1 + forest.size ≤ id
      have notRoot : id ≠ 0 := outside.1
      omega
    rw [CutOff, slot_of_size_le unused]
    exact ⟨rfl, rfl⟩

end Grows

/-- Copying the trees on a stack adds them below their new parents. -/
theorem Holds.copyFrom {source : Arena} {above : Option Nat} {shape : Forest Nat}
    (holds : source.Holds above shape forest) {copy : Arena} (inside : parent < copy.size) :
    ∃ next, Grows parent forest copy next ∧ ∀ steps pending,
      source.copyFrom (shape.size + steps)
          ((shape.tops.map fun child => (child, parent)) ++ pending) copy =
        source.copyFrom steps pending next := by
  induction holds generalizing parent copy with
  | nil =>
      refine ⟨copy, .nil parent copy, fun steps pending => ?_⟩
      rw [Forest.size, Nat.zero_add]
      rfl
  | @node above id label inner later children siblings within slot below beside belowHypothesis
      besideHypothesis =>
      have own : source.node id = label := by rw [Arena.node, slot]
      obtain ⟨middle, grown, copied⟩ := @belowHypothesis copy.size (copy.add label parent) (by simp)
      obtain ⟨next, further, finished⟩ := @besideHypothesis parent middle (by
        rw [grown.size, size_add]
        omega)
      refine ⟨next, .node inside grown further, fun steps pending => ?_⟩
      have count : (Forest.node id inner later).size + steps =
          inner.size + (later.size + steps) + 1 := by
        rw [Forest.size]
        omega
      rw [count, Forest.tops, List.map_cons, List.cons_append, Arena.copyFrom, own, slot, copied,
        finished]

theorem Lays.deepCopy {shape : Forest Nat} {tree : CallTree} (lays : arena.Lays shape tree) :
    arena.deepCopy.Lays (tree.children.places 1) tree := by
  obtain ⟨next, grows, copied⟩ := @Holds.copyFrom rootId _ _ _ _ lays.below
    ⟨#[⟨tree.root, none, []⟩]⟩ Nat.zero_lt_one
  have steps : shape.size ≤ arena.size := by
    have few := lays.size_le
    rw [Forest.size] at few
    omega
  have finished := copied (arena.size - shape.size) []
  rw [Nat.add_sub_of_le steps, List.append_nil] at finished
  have same : arena.deepCopy = next := by
    rw [Arena.deepCopy, lays.slot_root, finished]
    cases arena.size - shape.size <;> rfl
  rw [same]
  exact grows.lays

end CallProfiler.Arena
