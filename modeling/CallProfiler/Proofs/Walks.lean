import CallProfiler.Forest
import Mathlib.Data.List.Range

/-!
# Walks over forests

Every walk meets every node once. Numbering the nodes in preorder counts them through, and the
walk in postorder meets a child before its parent.
-/

namespace CallProfiler.Forest

universe u

variable {α : Type u}

/-- The walk in preorder counts the places through. -/
theorem preorder_places (forest : Forest α) (first : Nat) :
    (forest.places first).preorder = List.range' first forest.size := by
  induction forest generalizing first with
  | nil => rfl
  | node label children siblings childrenHypothesis siblingsHypothesis =>
      have parts : (Forest.node label children siblings).size =
          (children.size + siblings.size) + 1 := by
        rw [size]
        omega
      rw [places_node, preorder, childrenHypothesis, siblingsHypothesis, parts, List.range'_succ,
        ← List.range'_append_1]

theorem mem_preorder_places {forest : Forest α} {first place : Nat} :
    place ∈ (forest.places first).preorder ↔ first ≤ place ∧ place < first + forest.size := by
  rw [preorder_places, List.mem_range'_1]

theorem tops_sublist_preorder (forest : Forest α) : forest.tops.Sublist forest.preorder := by
  induction forest with
  | nil => exact .slnil
  | node label children siblings _ inductionHypothesis =>
      exact (inductionHypothesis.trans (List.sublist_append_right _ _)).cons_cons label

theorem mem_preorder_of_mem_tops {forest : Forest α} {label : α} (member : label ∈ forest.tops) :
    label ∈ forest.preorder :=
  (tops_sublist_preorder forest).subset member

/-- What lies below a label in a forest lies in the forest, and not twice if nothing does. -/
theorem preorder_sublist_of_mem_entries {forest : Forest α} {entry : α × Forest α}
    (member : entry ∈ forest.entries) :
    (entry.1 :: entry.2.preorder).Sublist forest.preorder := by
  induction forest with
  | nil => cases member
  | node label children siblings childrenHypothesis siblingsHypothesis =>
      rcases List.mem_cons.1 member with rfl | member
      · exact (List.sublist_append_left _ _).cons_cons label
      · refine .cons label ?_
        rcases List.mem_append.1 member with inChildren | inSiblings
        · exact (childrenHypothesis inChildren).trans (List.sublist_append_left _ _)
        · exact (siblingsHypothesis inSiblings).trans (List.sublist_append_right _ _)

/-- The walk in postorder meets every child before its parent. -/
theorem postorder_child_parent {forest : Forest α} {entry : α × Forest α}
    (inForest : entry ∈ forest.entries) {child : α} (listed : child ∈ entry.2.tops) :
    [child, entry.1].Sublist forest.postorder := by
  induction forest with
  | nil => cases inForest
  | node label children siblings childrenHypothesis siblingsHypothesis =>
      rw [postorder]
      rcases List.mem_cons.1 inForest with rfl | inForest
      · have before : [child].Sublist children.postorder :=
          List.singleton_sublist.2
            ((postorder_perm_preorder children).mem_iff.2 (mem_preorder_of_mem_tops listed))
        exact before.append (List.singleton_sublist.2 List.mem_cons_self)
      · rcases List.mem_append.1 inForest with inChildren | inSiblings
        · exact (childrenHypothesis inChildren).trans (List.sublist_append_left _ _)
        · exact ((siblingsHypothesis inSiblings).cons label).trans (List.sublist_append_right _ _)

end CallProfiler.Forest
