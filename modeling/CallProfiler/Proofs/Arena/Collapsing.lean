import CallProfiler.Proofs.Arena.Folding
import CallProfiler.Proofs.Arena.Growing
import CallProfiler.Proofs.Arena.Merging
import CallProfiler.Proofs.Arena.Walks

/-!
# Collapsing an arena

Collapsing an arena copies its tree, folds the recursive slots of the copy, numbers the levels
anew and merges what has become siblings. Each of the steps does to the slots what it does to the
tree, and slots were counted as folded just where the tree is recursive.
-/

namespace CallProfiler.Arena

variable {arena : Arena} {parent id : Nat} {shape inner : Forest Nat} {forest : Forest Node}
  {tree : CallTree}

/-! ## Numbering the levels -/

/-- Numbering the slots of a shape below a parent numbers the forest that they hold. -/
theorem Holds.renumber (holds : arena.Holds (some parent) shape forest)
    (distinct : (parent :: shape.preorder).Nodup) {level : Int}
    (outermost : (arena.node parent).level + 1 = level) :
    (shape.preorder.foldl numberAt arena).Holds (some parent) shape (forest.renumber level) ∧
      Within shape.preorder arena (shape.preorder.foldl numberAt arena) := by
  induction forest generalizing arena parent shape level with
  | nil =>
      cases holds
      exact ⟨.nil, .refl _ _⟩
  | node label children siblings childrenHypothesis siblingsHypothesis =>
      cases holds with
      | @node _ id _ inner later _ _ inside slot below beside =>
      obtain ⟨fresh, distinctSlots⟩ := List.nodup_cons.1 distinct
      obtain ⟨own, distinctParts⟩ := List.nodup_cons.1 distinctSlots
      obtain ⟨distinctInner, distinctLater, apart⟩ := List.nodup_append'.1 distinctParts
      rw [Forest.preorder, List.mem_cons, List.mem_append, not_or, not_or] at fresh
      rw [List.mem_append, not_or] at own
      -- The slot itself comes first.
      have numbered : arena.numberAt id = arena.change id fun slot =>
          slot.hold { slot.node with level } := by
        rw [numberAt, slot]
        simp only [outermost]
      have changed := Within.change arena id fun slot => slot.hold { slot.node with level }
      rw [Forest.preorder, List.foldl_cons, List.foldl_append, numbered]
      have ownSlot : (arena.change id fun slot => slot.hold { slot.node with level }).slot id =
          ⟨{ label with level }, some parent, inner.tops⟩ := by
        rw [slot_change_self inside, slot]
        rfl
      generalize (arena.change id fun slot => slot.hold { slot.node with level }) = first at *
      have inside_eq : (first.node id).level + 1 = level + 1 := by rw [Arena.node, ownSlot]
      obtain ⟨held, inInner⟩ := childrenHypothesis
        (below.within changed (List.disjoint_singleton.2 own.1))
        (List.nodup_cons.2 ⟨own.1, distinctInner⟩) inside_eq
      generalize inner.preorder.foldl numberAt first = second at *
      have parentSlot : second.slot parent = arena.slot parent := by
        rw [inInner.slot parent fresh.2.1, changed.slot parent (by simpa using fresh.1)]
      have beside_eq : (second.node parent).level + 1 = level := by
        rw [Arena.node, parentSlot]
        exact outermost
      obtain ⟨heldLater, inLater⟩ := siblingsHypothesis
        ((beside.within changed (List.disjoint_singleton.2 own.2)).within inInner
          (List.disjoint_comm.1 apart))
        (List.nodup_cons.2 ⟨fresh.2.2, distinctLater⟩) beside_eq
      refine ⟨.node ?_ ?_ (held.within inLater apart) heldLater, ?_⟩
      · exact Nat.lt_of_lt_of_eq inside
          (inLater.size.trans (inInner.size.trans changed.size)).symm
      · rw [inLater.slot id own.2, inInner.slot id own.1, ownSlot]
      · exact ((changed.mono (by simp)).trans (inInner.mono (by simp))).trans
          (inLater.mono (by simp))

/-- Numbering an arena numbers the tree below the root. -/
theorem Lays.renumber (lays : arena.Lays shape tree) :
    arena.renumber.Lays shape
      { tree with children := tree.children.renumber (tree.root.level + 1) } := by
  have root : arena.numberAt rootId = arena := by
    rw [numberAt, lays.slot_root]
  have rootLevel : (arena.node rootId).level + 1 = tree.root.level + 1 := by
    rw [node, lays.slot_root]
  rw [Arena.renumber, lays.preorder_eq, List.foldl_cons, root]
  obtain ⟨held, within⟩ := lays.below.renumber lays.distinct rootLevel
  exact lays.changeBelow held within

/-! ## Folding what is recursive -/

/-- Folding in an arena takes out of its tree what folding the tree takes out, and counts slots
just where the tree is recursive. -/
theorem Lays.foldRecursion (lays : arena.Lays shape tree) :
    Matches Eq (fun state (result : Forest Node × List Folded) =>
        state.1.Represents { tree with children := result.1 } ∧
        (0 < state.2 ↔ tree.children.isRecursive [] = true))
      ((arena.postorder.filter (· != rootId)).foldlM foldAt (arena, 0))
      (tree.children.foldRecursion []) := by
  have whole : arena.Surrounds [] ([] ++ (shape.tops ++ [])) :=
    .root lays.rootId_lt (by rw [lays.slot_root]) (by rw [lays.slot_root]; simp)
  have below : arena.Holds (some (CallerSlot.innermost [])) shape tree.children := lays.below
  have folding := below.foldOutwards whole lays.distinct (List.disjoint_nil_left _) 0
  rw [List.map_nil, Forest.foldOutwards_nil] at folding
  rw [lays.postorder_filter]
  refine folding.of_bind_pure.imp (fun _ _ _ _ same => same) ?_
  rintro ⟨next, count⟩ ⟨remaining, folded⟩ - done
    ⟨revised, kept, gone, unrevised, held, around, handed⟩
  obtain rfl : revised = [] := List.map_eq_nil_iff.1 unrevised
  have held : next.Holds (some rootId) kept remaining := held
  have slots : (kept.preorder ++ gone).Perm shape.preorder := handed.slots
  have within : Within shape.preorder arena next := handed.within
  constructor
  · -- The root lists what it listed, since nothing is folded into it.
    have rootSlot : next.slot rootId = ⟨tree.root, none, kept.tops⟩ := by
      have same := within.slot rootId lays.rootId_not_mem
      rw [lays.slot_root] at same
      cases around with
      | root _ _ listed =>
          rw [same] at listed ⊢
          rw [List.nil_append, List.append_nil] at listed
          rw [show shape.tops = kept.tops from listed]
    have inside := Nat.lt_of_lt_of_eq lays.rootId_lt within.size.symm
    have rebuilt : next.Rebuilt (rootId :: (shape.preorder ++ [])) none (.node rootId kept .nil)
        (.node tree.root remaining .nil) :=
      .node inside rootSlot ⟨held, gone, slots, handed.cutOff⟩ ⟨.nil, [], .nil, nofun⟩
    rw [List.append_nil] at rebuilt
    exact ⟨kept, lays.rebuilt (within.mono (List.subset_cons_self _ _)) rebuilt⟩
  · have outermost : folded = [] := by
      cases folded with
      | nil => rfl
      | cons leaving later =>
          cases @Forest.name_of_mem_folded [] _ _ _ done leaving List.mem_cons_self
    obtain ⟨taken, sizes, taken_iff⟩ := @Forest.exists_taken_of_foldRecursion _ [] _ _ done
    have length := slots.length_eq
    rw [List.length_append, Forest.length_preorder, Forest.length_preorder, held.size_eq,
      lays.below.size_eq] at length
    rw [outermost, List.map_nil, List.sum_nil] at sizes
    have counted : count = gone.length := handed.count.trans (Nat.zero_add _)
    rw [List.reverse_nil] at taken_iff
    show 0 < count ↔ _
    rw [← taken_iff]
    omega

/-! ## Collapsing -/

theorem Lays.collapseRecursion (lays : arena.Lays shape tree) :
    Follows arena.collapseRecursion tree.collapseRecursion := by
  rw [Arena.collapseRecursion, CallTree.collapseRecursion]
  have folding := lays.deepCopy.foldRecursion
  by_cases recursive : tree.children.isRecursive [] = true
  · rw [if_pos recursive]
    refine folding.bind ?_
    rintro ⟨next, count⟩ ⟨remaining, _⟩ ⟨⟨kept, laysKept⟩, counts⟩
    have folded : count > 0 := counts.2 recursive
    dsimp only
    rw [if_pos folded]
    exact laysKept.renumber.mergeSiblings
  · have nowhere := Bool.eq_false_of_not_eq_true recursive
    rw [if_neg recursive]
    rw [Forest.foldRecursion_of_nonrecursive nowhere] at folding
    obtain ⟨⟨next, count⟩, done, related, counts⟩ := folding.left_of_ok rfl
    have none : ¬ count > 0 := fun folded => recursive (counts.1 folded)
    rw [done, ok_bind]
    dsimp only
    rw [if_neg none]
    exact .done related

end CallProfiler.Arena
