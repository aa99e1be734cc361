import CallProfiler.Arena.Mitigation
import CallProfiler.CallTree.Mitigation
import CallProfiler.Proofs.Arena.Walks

/-!
# Mitigating an arena

Going through the slots of a shape in postorder does to the forest they hold what mitigating it
does, and stops where that stops.
-/

namespace CallProfiler

namespace Forest

/-- The mitigated forest, where no sum leaves its width. -/
def mitigated (calibration : Calibration) (forest : Forest Node) : Except Fault (Forest Node) :=
  match forest.mitigate calibration with
  | (relieved, none) => .ok relieved
  | (_, some reached) => .error reached

theorem mitigated_node (calibration : Calibration) (label : Node)
    (children siblings : Forest Node) :
    (node label children siblings).mitigated calibration = (do
      let children ← children.mitigated calibration
      let label ← label.mitigate calibration children
      let siblings ← siblings.mitigated calibration
      return .node label children siblings) := by
  rw [mitigated, mitigated, mitigated, mitigate]
  rcases children.mitigate calibration with ⟨inner, _ | reached⟩
  · cases done : label.mitigate calibration inner with
    | error reached => simp only [ok_bind, done]; rfl
    | ok relieved =>
        simp only [ok_bind, done]
        rcases siblings.mitigate calibration with ⟨later, _ | reached⟩ <;> rfl
  · rfl

end Forest

theorem CallTree.mitigated_eq (calibration : Calibration) (tree : CallTree) :
    tree.mitigated calibration =
      if calibration.isCalibrated then do
        let children ← tree.children.mitigated calibration
        { tree with children }.withRootTotals
      else .ok tree := by
  rw [mitigated, mitigate, Forest.mitigated]
  by_cases ready : calibration.isCalibrated = true
  · rw [if_pos ready, if_pos ready]
    rcases tree.children.mitigate calibration with ⟨children, _ | reached⟩
    · simp only [ok_bind]
      cases ({ tree with children } : CallTree).withRootTotals <;> rfl
    · rfl
  · rw [if_neg ready, if_neg ready]

namespace Arena

variable {arena : Arena} {parent : Option Nat} {shape inner : Forest Nat}
  {forest children : Forest Node} {tree : CallTree} {label : Node} {id : Nat}

/-- A slot above a mitigated forest is mitigated as the node it holds. -/
theorem mitigateAt_matches (calibration : Calibration) (inside : id < arena.size)
    (slot : arena.slot id = ⟨label, parent, inner.tops⟩)
    (below : arena.Holds (some id) inner children) :
    Matches Eq (fun next node => next.slot id = ⟨node, parent, inner.tops⟩ ∧ Within [id] arena next)
      (arena.mitigateAt calibration id) (label.mitigate calibration children) := by
  have listed : (arena.slot id).children = inner.tops := by rw [slot]
  have own : arena.node id = label := by rw [Arena.node, slot]
  rw [mitigateAt, Node.mitigate, own, below.overChildren listed, below.overChildren listed]
  split
  · exact .done ⟨slot, .refl _ _⟩
  · refine .bind_same fun calls _ => .bind_same fun cost _ => .bind_same fun floor _ => ?_
    refine .done ⟨?_, .change arena id _⟩
    rw [slot_change_self inside, slot]
    rfl

/-- Mitigating the slots of a shape mitigates the forest they hold. -/
theorem Holds.mitigate (calibration : Calibration) (holds : arena.Holds parent shape forest)
    (distinct : shape.preorder.Nodup) :
    Matches Eq (fun next relieved => next.Holds parent shape relieved ∧
        Within shape.preorder arena next)
      (shape.postorder.foldlM (mitigateAt calibration) arena) (forest.mitigated calibration) := by
  induction forest generalizing arena parent shape with
  | nil =>
      cases holds
      exact .done ⟨.nil, .refl _ _⟩
  | node label children siblings childrenHypothesis siblingsHypothesis =>
      cases holds with
      | @node _ id _ inner later _ _ inside slot below beside =>
      obtain ⟨fresh, distinctParts⟩ := List.nodup_cons.1 distinct
      obtain ⟨distinctInner, distinctLater, apart⟩ := List.nodup_append'.1 distinctParts
      rw [List.mem_append, not_or] at fresh
      rw [Forest.postorder, List.foldlM_append, Forest.mitigated_node]
      refine (childrenHypothesis below distinctInner).bind ?_
      rintro first relieved ⟨held, inInner⟩
      have ownSlot := (inInner.slot id fresh.1).trans slot
      have ownInside := Nat.lt_of_lt_of_eq inside inInner.size.symm
      rw [List.foldlM_cons]
      refine (mitigateAt_matches calibration ownInside ownSlot held).bind ?_
      rintro second node ⟨nodeSlot, atOwn⟩
      have besideFirst := beside.within inInner (List.disjoint_comm.1 apart)
      have besideSecond := besideFirst.within atOwn (List.disjoint_singleton.2 fresh.2)
      have heldSecond := held.within atOwn (List.disjoint_singleton.2 fresh.1)
      refine (siblingsHypothesis besideSecond distinctLater).bind_pure ?_
      rintro third rest ⟨heldLater, inLater⟩
      constructor
      · refine .node ?_ ((inLater.slot id fresh.2).trans nodeSlot)
          (heldSecond.within inLater apart) heldLater
        exact Nat.lt_of_lt_of_eq ownInside (inLater.size.trans atOwn.size).symm
      · rw [Forest.preorder]
        exact ((inInner.mono (by simp)).trans (atOwn.mono (by simp))).trans
          (inLater.mono (by simp))

theorem Lays.mitigated (calibration : Calibration) (lays : arena.Lays shape tree) :
    Matches Eq (fun next other => next.Lays shape other) (arena.mitigated calibration)
      (tree.mitigated calibration) := by
  rw [Arena.mitigated, CallTree.mitigated_eq]
  split
  · rw [lays.postorder_filter]
    refine (lays.below.mitigate calibration lays.distinct_shape).bind ?_
    rintro relieved children ⟨held, within⟩
    exact (lays.changeBelow held within).withRootTotals
  · exact .done lays

end Arena

end CallProfiler
