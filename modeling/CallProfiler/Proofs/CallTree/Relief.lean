import CallProfiler.Proofs.CallTree.Invariant
import CallProfiler.Proofs.CallTree.Load
import Mathlib.Data.List.Forall2

/-!
# What mitigation takes off

Mitigation of a tree that was not mitigated yet takes the cost of recording off every node, but
never more than leaves it the time of its children, which were mitigated before it.
`Forest.relieved` computes these times without regard to any width, and `mitigate_relieves` says
that mitigation comes to them where every sum fits, and what follows for the tree.
-/

namespace CallProfiler

/-- The cost of a node's own calls and of the calls made inside them, each rounded down. -/
def Calibration.cost (calibration : Calibration) (own inside : Nat) : Nat :=
  calibration.selfTime.toNat * own / calibration.samples.toNat +
    calibration.childrenTime.toNat * inside / calibration.samples.toNat

namespace Forest

/-- Calls added up in the outermost trees, without regard to any width. -/
def count (forest : Forest Node) : Nat := (forest.tops.map (·.count)).sum

/-- Every node without the cost of recording, children first. -/
def relieved (calibration : Calibration) : Forest Node → Forest Node
  | .nil => .nil
  | .node label children siblings =>
    .node
      { label with
        realtime := max (children.relieved calibration).time
          (label.realtime - calibration.cost label.count children.count)
        mitigated := true }
      (children.relieved calibration) (siblings.relieved calibration)

end Forest

/-- The cost of a node and the sums over its children fit their width. -/
structure Node.CostFits (calibration : Calibration) (children : Forest Node) (node : Node) :
    Prop where
  calls : children.count < Width.bound 64
  cost : calibration.cost node.count children.count < Width.bound 64
  time : (children.relieved calibration).time < Width.bound 64

instance (calibration : Calibration) (children : Forest Node) (node : Node) :
    Decidable (node.CostFits calibration children) :=
  decidable_of_iff (children.count < Width.bound 64 ∧
      calibration.cost node.count children.count < Width.bound 64 ∧
      (children.relieved calibration).time < Width.bound 64)
    ⟨fun ⟨calls, cost, time⟩ => ⟨calls, cost, time⟩, fun ⟨calls, cost, time⟩ => ⟨calls, cost, time⟩⟩

/-- A node without the cost of recording: it keeps the time of its children and all that is no
time. -/
structure Branch.Relieves (calibration : Calibration) (raw relieved : Branch) : Prop where
  path : relieved.path = raw.path
  node : relieved.node = { raw.node with
    realtime := max relieved.children.time
      (raw.node.realtime - calibration.cost raw.node.count raw.children.count)
    mitigated := true }

/-- A node that lasts no longer than another one. -/
def Branch.Shortens (raw relieved : Branch) : Prop := relieved.node.realtime ≤ raw.node.realtime

namespace CallTree

/-- Every cost and every sum of a tree's mitigation fits its width. -/
structure CostFits (calibration : Calibration) (tree : CallTree) : Prop where
  nodes : ∀ entry ∈ tree.children.entries, entry.1.CostFits calibration entry.2
  root : (tree.children.relieved calibration).time < Width.bound 64

/-- A tree without the cost of recording. -/
structure Relief (calibration : Calibration) (tree full : CallTree) : Prop where
  nodes : List.Forall₂ (Branch.Relieves calibration) (tree.children.branches [])
    (full.children.branches [])
  /-- Times and the mark of mitigation apart, the nodes below the root are what they were. -/
  untimed : full.children.map Node.untimed = tree.children.map Node.untimed
  root : full.root = { tree.root with realtime := full.children.time }
  covers : full.Covers
  shortens : tree.Covers → List.Forall₂ Branch.Shortens (tree.trunk :: tree.children.branches [])
    (full.trunk :: full.children.branches [])
  once : ∀ other, full.mitigate other = (full, none)

end CallTree

/-! ## One node -/

namespace Calibration

variable {calibration : Calibration}

theorem scaled_eq {total : UInt64} {calls : Nat} {samples : UInt32}
    (fits : total.toNat * calls / samples.toNat < Width.bound 64) :
    scaled total calls samples = total.toNat * calls / samples.toNat := by
  rw [scaled]
  split
  · rename_i unmeasured
    rw [unmeasured]
    exact (Nat.div_zero _).symm
  · exact Nat.mod_eq_of_lt fits

/-- A cost that fits is what the program takes off. -/
theorem overhead_eq_cost {own inside : Nat} (fits : calibration.cost own inside < Width.bound 64) :
    calibration.selfOverhead own + calibration.childrenOverhead inside =
      calibration.cost own inside := by
  rw [cost] at fits ⊢
  have ownFits := Nat.lt_of_le_of_lt (Nat.le_add_right _ _) fits
  have insideFits := Nat.lt_of_le_of_lt (Nat.le_add_left _ _) fits
  rw [selfOverhead, childrenOverhead, scaled_eq ownFits, scaled_eq insideFits]

end Calibration

namespace Forest

theorem map_untimed_relieved (calibration : Calibration) (forest : Forest Node) :
    (forest.relieved calibration).map Node.untimed = forest.map Node.untimed := by
  induction forest with
  | nil => rfl
  | node label children siblings childrenHypothesis siblingsHypothesis =>
      rw [relieved, map, map, childrenHypothesis, siblingsHypothesis]
      rfl

end Forest

/-- A fresh node whose cost fits is mitigated to what is left of it. -/
theorem Node.mitigate_relieved {calibration : Calibration} {children : Forest Node} {node : Node}
    (fresh : node.mitigated = false) (fits : node.CostFits calibration children) :
    node.mitigate calibration (children.relieved calibration) = .ok { node with
      realtime := max (children.relieved calibration).time
        (node.realtime - calibration.cost node.count children.count)
      mitigated := true } := by
  have same := Forest.map_untimed_relieved calibration children
  have sameCalls : ((children.relieved calibration).tops.map (·.count)).sum = children.count :=
    congrArg List.sum (Forest.map_tops_of_untimed same fun _ => rfl)
  have cost := Calibration.overhead_eq_cost fits.cost
  rw [mitigate_of_fits fresh (by rw [sameCalls]; exact fits.calls)
    (by rw [sameCalls, cost]; exact fits.cost) fits.time, sameCalls, cost, Nat.max_comm]

/-! ## All nodes -/

namespace Forest

variable {calibration : Calibration} {forest : Forest Node}

/-- Where all costs fit, mitigation of a fresh forest comes to what is left of it. -/
theorem mitigate_eq_relieved (fresh : ∀ node ∈ forest.preorder, node.mitigated = false)
    (fits : ∀ entry ∈ forest.entries, entry.1.CostFits calibration entry.2) :
    forest.mitigate calibration = (forest.relieved calibration, none) := by
  induction forest with
  | nil => rfl
  | node label children siblings childrenHypothesis siblingsHypothesis =>
      rw [preorder, List.forall_mem_cons, List.forall_mem_append] at fresh
      rw [entries, List.forall_mem_cons, List.forall_mem_append] at fits
      obtain ⟨ownFresh, inChildren, inSiblings⟩ := fresh
      obtain ⟨ownFits, childrenFit, siblingsFit⟩ := fits
      -- The node is reached when its children are done, so it is compared with what is left of them.
      rw [mitigate, childrenHypothesis inChildren childrenFit]
      dsimp only
      rw [Node.mitigate_relieved ownFresh ownFits, siblingsHypothesis inSiblings siblingsFit]
      rfl

/-- A forest whose nodes were all mitigated is left alone. -/
theorem mitigate_of_mitigated (done : ∀ node ∈ forest.preorder, node.mitigated = true) :
    forest.mitigate calibration = (forest, none) := by
  induction forest with
  | nil => rfl
  | node label children siblings childrenHypothesis siblingsHypothesis =>
      rw [preorder, List.forall_mem_cons, List.forall_mem_append] at done
      obtain ⟨own, inChildren, inSiblings⟩ := done
      rw [mitigate, childrenHypothesis inChildren]
      dsimp only
      rw [Node.mitigate, if_pos own, siblingsHypothesis inSiblings]

theorem mitigated_relieved (calibration : Calibration) (forest : Forest Node) :
    ∀ node ∈ (forest.relieved calibration).preorder, node.mitigated = true := by
  induction forest with
  | nil => simp [relieved, preorder]
  | node label children siblings childrenHypothesis siblingsHypothesis =>
      rw [relieved, preorder, List.forall_mem_cons, List.forall_mem_append]
      exact ⟨rfl, childrenHypothesis, siblingsHypothesis⟩

/-- Every node of a forest is relieved, in its place. -/
theorem branches_relieved (calibration : Calibration) (forest : Forest Node) (above : CallPath) :
    List.Forall₂ (Branch.Relieves calibration) (forest.branches above)
      ((forest.relieved calibration).branches above) := by
  induction forest generalizing above with
  | nil => exact .nil
  | node label children siblings childrenHypothesis siblingsHypothesis =>
      rw [relieved, branches, branches]
      refine .cons ⟨rfl, rfl⟩ ?_
      exact List.rel_append (childrenHypothesis _) (siblingsHypothesis above)

/-- What is left of a node covers what is left of its children. -/
theorem coversBelow_relieved (calibration : Calibration) (forest : Forest Node)
    (above : CallPath) : (forest.relieved calibration).CoversBelow above := by
  induction forest generalizing above with
  | nil =>
      intro branch member
      cases member
  | node label children siblings childrenHypothesis siblingsHypothesis =>
      rw [CoversBelow, relieved, branches, List.forall_mem_cons, List.forall_mem_append]
      exact ⟨Nat.le_max_left _ _, childrenHypothesis _, siblingsHypothesis above⟩

/-- Where nodes cover their children the outermost ones do not grow. -/
theorem time_relieved_le {above : CallPath} (covers : forest.CoversBelow above) :
    (forest.relieved calibration).time ≤ forest.time := by
  induction forest generalizing above with
  | nil => exact Nat.le_refl 0
  | node label children siblings childrenHypothesis siblingsHypothesis =>
      have inside := childrenHypothesis covers.inChildren
      have beside := siblingsHypothesis covers.inSiblings
      have head := covers.head
      rw [relieved, time_node, time_node]
      dsimp only
      -- The larger of two times, neither of which exceeds the node's own.
      omega

/-- Where nodes cover their children no node grows. -/
theorem shortens_relieved {above : CallPath} (covers : forest.CoversBelow above) :
    List.Forall₂ Branch.Shortens (forest.branches above)
      ((forest.relieved calibration).branches above) := by
  induction forest generalizing above with
  | nil => exact .nil
  | node label children siblings childrenHypothesis siblingsHypothesis =>
      have inside := @time_relieved_le calibration children _ covers.inChildren
      have head := covers.head
      rw [relieved, branches, branches]
      refine .cons ?_ ?_
      · show max _ _ ≤ label.realtime
        omega
      · exact List.rel_append (childrenHypothesis covers.inChildren)
          (siblingsHypothesis covers.inSiblings)

end Forest

/-! ## Whole trees -/

namespace CallTree

/-- A tree whose nodes were all mitigated and whose root has its totals is left alone. -/
theorem mitigate_of_mitigated {tree : CallTree}
    (done : ∀ node ∈ tree.children.preorder, node.mitigated = true)
    (totals : tree.withRootTotals = .ok tree) (calibration : Calibration) :
    tree.mitigate calibration = (tree, none) := by
  rw [mitigate]
  by_cases calibrated : calibration.isCalibrated = true
  · rw [if_pos calibrated, Forest.mitigate_of_mitigated done]
    dsimp only
    rw [totals]
  · rw [if_neg calibrated]

/-- The root keeps its CPU time and gets the time that is left of its children. -/
theorem Sound.withRootTotals_relieved {calibration : Calibration} {tree : CallTree}
    (sound : tree.Sound) (fits : (tree.children.relieved calibration).time < Width.bound 64)
    (time : Nat) :
    withRootTotals ⟨{ tree.root with realtime := time }, tree.children.relieved calibration⟩ =
      .ok ⟨{ tree.root with realtime := (tree.children.relieved calibration).time },
        tree.children.relieved calibration⟩ := by
  obtain ⟨cpuFits, cpuEq⟩ := Checked.sum_eq_ok_iff.1 sound.cpu
  rw [Checked.total_eq_sum] at cpuFits cpuEq
  have sameCpu : (tree.children.relieved calibration).tops.map (·.cpu) =
      tree.children.tops.map (·.cpu) :=
    Forest.map_tops_of_untimed (Forest.map_untimed_relieved calibration tree.children) fun _ => rfl
  rw [withRootTotals_of_fits fits (by rw [sameCpu]; exact cpuFits)]
  dsimp only
  rw [sameCpu, ← cpuEq]

/-- Mitigation of a fresh tree whose costs fit takes the cost of recording off every node. -/
theorem mitigate_relieves {events : List Event} {tree : CallTree} {calibration : Calibration}
    (derived : Derived events tree)
    (fresh : ∀ node ∈ tree.children.preorder, node.mitigated = false)
    (calibrated : calibration.samples ≠ 0) (fits : tree.CostFits calibration) :
    ∃ full, tree.mitigate calibration = (full, none) ∧ tree.Relief calibration full := by
  have finished := Forest.mitigate_eq_relieved fresh fits.nodes
  have isCalibrated : calibration.isCalibrated = true := by
    rw [Calibration.isCalibrated, bne_iff_ne]
    exact calibrated
  refine ⟨⟨{ tree.root with realtime := (tree.children.relieved calibration).time },
    tree.children.relieved calibration⟩, ?_, ?_⟩
  · rw [mitigate, if_pos isCalibrated, finished]
    dsimp only
    rw [derived.sound.withRootTotals_relieved fits.root tree.root.realtime]
  · constructor
    case nodes => exact Forest.branches_relieved calibration tree.children []
    case untimed => exact Forest.map_untimed_relieved calibration tree.children
    case root => rfl
    case covers =>
      rw [Covers, List.forall_mem_cons]
      exact ⟨Nat.le_refl _, Forest.coversBelow_relieved calibration tree.children []⟩
    case shortens =>
      intro covers
      have below : tree.children.CoversBelow [] := fun branch member =>
        covers branch (List.mem_cons_of_mem _ member)
      refine .cons ?_ (Forest.shortens_relieved below)
      exact Nat.le_trans (Forest.time_relieved_le below) (covers tree.trunk List.mem_cons_self)
    case once =>
      exact mitigate_of_mitigated (Forest.mitigated_relieved calibration tree.children)
        (derived.sound.withRootTotals_relieved fits.root _)

/-- Recursion of two functions through each other, where calls cost the calls around them much:
some nodes keep no more than the time of their children. -/
theorem mitigate_relieves_intertwined :
    ∃ tree, build intertwined = .ok tree ∧
      (∀ node ∈ tree.children.preorder, node.mitigated = false) ∧
      tree.CostFits ⟨100, 250, 3000⟩ ∧ ∃ full, tree.mitigate ⟨100, 250, 3000⟩ = (full, none) ∧
        tree.Relief ⟨100, 250, 3000⟩ full ∧
        tree.children.preorder.map (·.realtime) = [100, 90, 3, 80, 4, 60, 10, 20] ∧
        full.children.preorder.map (·.realtime) = [68, 29, 1, 28, 2, 26, 8, 18] := by
  refine ⟨_, rfl, by decide, ⟨by decide, by decide⟩, ?_⟩
  obtain ⟨full, finished, relief⟩ := @mitigate_relieves intertwined _ ⟨100, 250, 3000⟩ (.built rfl)
    (by decide) (by decide) ⟨by decide, by decide⟩
  refine ⟨full, finished, relief, rfl, ?_⟩
  cases finished
  rfl

end CallTree

end CallProfiler
