import CallProfiler.Proofs.CallTree.Fitting
import CallProfiler.Proofs.CallTree.Folding
import Mathlib.Algebra.Order.BigOperators.Group.List
import Mathlib.Algebra.Order.Group.Nat

/-!
# Totals over all nodes

Folding and merging move times and calls between nodes, and sums of them are taken on the way.
A quantity that neither operation makes more of bounds all these sums by its total over the
nodes at the beginning.
-/

namespace CallProfiler

namespace Forest

/-- What all nodes of a forest hold together. -/
def total (quantity : Node → Nat) (forest : Forest Node) : Nat :=
  (forest.preorder.map quantity).sum

section Total

variable (quantity : Node → Nat)

@[simp] theorem total_nil : (nil : Forest Node).total quantity = 0 := rfl

@[simp] theorem total_node (label : Node) (children siblings : Forest Node) :
    (node label children siblings).total quantity =
      quantity label + children.total quantity + siblings.total quantity := by
  simp [total, preorder, Nat.add_assoc]

@[simp] theorem total_append (first second : Forest Node) :
    (first.append second).total quantity = first.total quantity + second.total quantity := by
  simp [total]

theorem total_adopt (forest : Forest Node) (own : List Folded) :
    (forest.adopt own).total quantity =
      forest.total quantity + (own.map fun folded => folded.children.total quantity).sum := by
  induction own generalizing forest with
  | nil => simp
  | cons namesake rest inductionHypothesis =>
      rw [adopt_cons, inductionHypothesis, total_append, List.map_cons, List.sum_cons,
        Nat.add_assoc]

theorem sum_tops_le_total (forest : Forest Node) :
    (forest.tops.map quantity).sum ≤ forest.total quantity := by
  induction forest with
  | nil => exact Nat.le_refl 0
  | node label children siblings _ inductionHypothesis =>
      rw [tops, List.map_cons, List.sum_cons, total_node]
      omega

/-- What the nodes of one path hold is part of what all nodes do. -/
theorem amount_le_total (forest : Forest Node) (path : CallPath) :
    forest.amount quantity path ≤ forest.total quantity := by
  rw [amount, nodesAt, total, ← map_snd_located [], List.map_map, List.map_map]
  exact (List.filter_sublist.map _).sum_le_sum fun _ _ => Nat.zero_le _

/-- The totals of every path fit where those of all nodes do. -/
theorem sumsFit_of_total {forest : Forest Node}
    (realtime : forest.total (·.realtime) < Width.bound 64)
    (cpu : forest.total (·.cpu) < Width.bound 64)
    (count : forest.total (·.count) < Width.bound 64)
    (removedCalls : forest.total (·.removedCalls) < Width.bound 64)
    (recursions : forest.total (·.recursions) < Width.bound 32) (path : CallPath) :
    Node.SumsFit (forest.nodesAt path) := by
  have part (quantity : Node → Nat) := amount_le_total quantity forest path
  constructor
  case realtime => exact Nat.lt_of_le_of_lt (part _) realtime
  case cpu => exact Nat.lt_of_le_of_lt (part _) cpu
  case count => exact Nat.lt_of_le_of_lt (part _) count
  case removedCalls => exact Nat.lt_of_le_of_lt (part _) removedCalls
  case recursions => exact Nat.lt_of_le_of_lt (part _) recursions

variable {quantity}

theorem total_le_total {other : Node → Nat} {forest : Forest Node}
    (le : ∀ node ∈ forest.preorder, quantity node ≤ other node) :
    forest.total quantity ≤ forest.total other :=
  List.sum_le_sum le

theorem total_renumber (leveled : ∀ (node : Node) (level : Int),
      quantity { node with level } = quantity node) (forest : Forest Node) (level : Int) :
    (forest.renumber level).total quantity = forest.total quantity := by
  induction forest generalizing level with
  | nil => rfl
  | node label children siblings childrenHypothesis siblingsHypothesis =>
      rw [renumber, total_node, total_node, leveled, childrenHypothesis, siblingsHypothesis]

/-- Merging makes no more of what combining makes no more of. -/
theorem total_mergeInto_le {ε : Type} {combine : Node → Node → Except ε Node}
    (combining : ∀ survivor absorbed node, combine survivor absorbed = .ok node →
      quantity node ≤ quantity survivor + quantity absorbed)
    {merged forest result : Forest Node} (done : mergeInto combine merged forest = .ok result) :
    result.total quantity ≤ merged.total quantity + forest.total quantity := by
  induction forest generalizing merged result with
  | nil =>
      cases done
      exact Nat.le_refl _
  | node label children siblings childrenHypothesis siblingsHypothesis =>
      rcases mergeInto_node done with ⟨inner, _, within, rest⟩ |
        ⟨before, survivor, kept, after, node, inner, rfl, _, combined, within, rest⟩
      · have following := siblingsHypothesis rest
        have inside := childrenHypothesis within
        simp only [total_append, total_node, total_nil] at following inside ⊢
        omega
      · have following := siblingsHypothesis rest
        have inside := childrenHypothesis within
        have own := combining survivor label node combined
        simp only [total_append, total_node] at following inside ⊢
        omega

end Total

end Forest

/-! ## Folding -/

/-- A quantity of nodes that folding makes no more of. A recursive node on its way to its
namesake has `folded`. -/
structure Weight where
  node : Node → Nat
  folded : Folded → Nat
  takeIn_le : ∀ label namesake grown, Node.takeIn label namesake = .ok grown →
    node grown ≤ node label + folded namesake
  letPass_le : ∀ label passing, node (label.letPass passing) ≤ node label
  leaving_le : ∀ label inside children, folded (label.leaving inside children) ≤ node label

namespace Weight

/-- The elapsed time of a recursive node is dropped. -/
def realtime : Weight where
  node := (·.realtime)
  folded _ := 0
  takeIn_le _ _ _ done := by rw [Node.takeIn_eq_ok done]; exact Nat.le_refl _
  letPass_le _ _ := Nat.sub_le _ _
  leaving_le _ _ _ := Nat.zero_le _

def cpu : Weight where
  node := (·.cpu)
  folded _ := 0
  takeIn_le _ _ _ done := by rw [Node.takeIn_eq_ok done]; exact Nat.le_refl _
  letPass_le _ _ := Nat.le_refl _
  leaving_le _ _ _ := Nat.zero_le _

def count : Weight where
  node := (·.count)
  folded := (·.calls)
  takeIn_le _ _ _ done := by rw [Node.takeIn_eq_ok done]
  letPass_le _ _ := Nat.le_refl _
  leaving_le _ _ _ := Nat.le_refl _

/-- A node and the recursive ones that it took in. -/
def nodes : Weight where
  node label := label.recursions + 1
  folded namesake := namesake.recursions + 1
  takeIn_le _ _ _ done := by rw [Node.takeIn_eq_ok done]; dsimp only; omega
  letPass_le _ _ := Nat.le_refl _
  leaving_le _ _ _ := Nat.le_refl _

variable (weight : Weight)

/-- What is on its way with a recursive node, its children included. -/
def pending (folded : Folded) : Nat := weight.folded folded + folded.children.total weight.node

theorem foldlM_takeIn_le {label grown : Node} {own : List Folded}
    (done : own.foldlM Node.takeIn label = .ok grown) :
    weight.node grown ≤ weight.node label + (own.map weight.folded).sum := by
  induction own generalizing label with
  | nil =>
      cases done
      exact Nat.le_refl _
  | cons first rest inductionHypothesis =>
      rw [List.foldlM_cons] at done
      obtain ⟨middle, head, tail⟩ := bind_eq_ok_iff.1 done
      have step := weight.takeIn_le label first middle head
      have later := inductionHypothesis tail
      rw [List.map_cons, List.sum_cons]
      omega

theorem sum_pending (own : List Folded) : (own.map weight.pending).sum =
    (own.map weight.folded).sum +
      (own.map fun folded => folded.children.total weight.node).sum :=
  List.sum_map_add

/-- What remains and what is on its way is no more than what there was. -/
theorem total_foldRecursion_le {path : CallPath} {forest remaining : Forest Node}
    {folded : List Folded}
    (done : Forest.foldRecursion path.reverse forest = .ok (remaining, folded)) :
    remaining.total weight.node + (folded.map weight.pending).sum ≤ forest.total weight.node := by
  induction forest generalizing path remaining folded with
  | nil =>
      cases done
      exact Nat.le_refl 0
  | node label children siblings childrenHypothesis siblingsHypothesis =>
      obtain ⟨inner, below, own, passing, node, rest, later, within, beside, ownEq, passingEq,
        taken, outcome⟩ := Forest.foldRecursion_node done
      have inChildren := childrenHypothesis within
      have inSiblings := siblingsHypothesis beside
      have parted : (own.map weight.pending).sum + (passing.map weight.pending).sum =
          (below.map weight.pending).sum := by
        rw [ownEq, passingEq]
        exact List.sum_map_filter_add_sum_map_filter_not (·.name = label.name) weight.pending below
      rw [weight.sum_pending own] at parted
      have grown := weight.foldlM_takeIn_le taken
      have passed := weight.letPass_le label passing
      rw [Forest.total_node]
      rcases outcome with ⟨_, inside, _, rfl, rfl⟩ | ⟨_, rfl, rfl⟩
      · have leaves := weight.leaving_le node inside (inner.adopt own)
        have leaving : weight.pending (node.leaving inside (inner.adopt own)) =
            weight.folded (node.leaving inside (inner.adopt own)) +
              (inner.adopt own).total weight.node := rfl
        rw [List.map_append, List.map_cons, List.sum_append, List.sum_cons, leaving,
          Forest.total_adopt]
        omega
      · rw [List.map_append, List.sum_append, Forest.total_node, Forest.total_adopt]
        omega

end Weight

end CallProfiler
