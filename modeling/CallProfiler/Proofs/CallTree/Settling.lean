import CallProfiler.Proofs.CallTree.Room

/-!
# Collapsing again

Collapsing walks over a tree once, and it looks for namesakes above a node before anything was
folded. One walk is enough: `settles_of_derived` says that no node of a collapsed tree has a
namesake above it, and `Settled` says what that makes of a tree. The walk takes no node out of
it, its levels are the ones it would be given, and no siblings are left to merge, so collapsing
returns the tree itself.
-/

namespace CallProfiler

namespace Forest

variable {forest : Forest Node}

/-- The search for recursion compares every node with those above it. -/
theorem isRecursive_eq_false_iff {above : List Node} :
    forest.isRecursive (above.map (·.name)) = false ↔
      ∀ entry ∈ forest.ancestry above, ∀ outer ∈ entry.2, outer.name ≠ entry.1.name := by
  induction forest generalizing above with
  | nil => simp [isRecursive, ancestry]
  | node label children siblings childrenHypothesis siblingsHypothesis =>
      have own : (above.map (·.name)).contains label.name = false ↔
          ∀ outer ∈ above, outer.name ≠ label.name := by
        rw [← Bool.not_eq_true, List.contains_iff_mem, List.mem_map]
        constructor
        · intro absent outer member same
          exact absent ⟨outer, member, same⟩
        · rintro apart ⟨outer, member, same⟩
          exact apart outer member same
      have inside := @childrenHypothesis (label :: above)
      rw [List.map_cons] at inside
      rw [isRecursive, Bool.or_eq_false_iff, Bool.or_eq_false_iff, own, inside, siblingsHypothesis,
        ancestry, List.forall_mem_cons, List.forall_mem_append, and_assoc]

/-- Where nothing is recursive nothing is folded. -/
theorem foldRecursion_of_nonrecursive {above : List String}
    (nowhere : forest.isRecursive above = false) :
    foldRecursion above forest = .ok (forest, []) := by
  induction forest generalizing above with
  | nil => rfl
  | node label children siblings childrenHypothesis siblingsHypothesis =>
      rw [isRecursive, Bool.or_eq_false_iff, Bool.or_eq_false_iff] at nowhere
      obtain ⟨⟨own, inside⟩, beside⟩ := nowhere
      rw [foldRecursion, childrenHypothesis inside, ok_bind]
      simp only [own]
      rw [siblingsHypothesis beside]
      rfl

@[simp] theorem size_append (first second : Forest Node) :
    (first.append second).size = first.size + second.size := by
  simp only [← length_preorder, preorder_append, List.length_append]

theorem size_adopt (forest : Forest Node) (own : List Folded) :
    (forest.adopt own).size = forest.size + (own.map (·.children.size)).sum := by
  induction own generalizing forest with
  | nil => rfl
  | cons namesake rest inductionHypothesis =>
      rw [adopt_cons, inductionHypothesis, size_append, List.map_cons, List.sum_cons, Nat.add_assoc]

/-- Folding takes out a number of nodes, and it takes one out just where the search for recursion
finds one. -/
theorem exists_taken_of_foldRecursion {path : CallPath} {remaining : Forest Node}
    {folded : List Folded} (done : foldRecursion path.reverse forest = .ok (remaining, folded)) :
    ∃ taken, remaining.size + (folded.map (·.children.size)).sum + taken = forest.size ∧
      (0 < taken ↔ forest.isRecursive path.reverse = true) := by
  induction forest generalizing path remaining folded with
  | nil =>
      cases done
      exact ⟨0, rfl, by simp [isRecursive]⟩
  | node label children siblings childrenHypothesis siblingsHypothesis =>
      obtain ⟨inner, below, own, passing, node, rest, later, within, beside, rfl, rfl, taken,
        outcome⟩ := foldRecursion_node done
      obtain ⟨inside, sumInside, inside_iff⟩ := childrenHypothesis within
      obtain ⟨outside, sumOutside, outside_iff⟩ := siblingsHypothesis beside
      rw [List.reverse_append, List.reverse_singleton, List.singleton_append] at inside_iff
      have parted : ((below.filter (·.name = label.name)).map (·.children.size)).sum +
          ((below.filter (·.name ≠ label.name)).map (·.children.size)).sum =
            (below.map (·.children.size)).sum :=
        List.sum_map_filter_add_sum_map_filter_not (·.name = label.name) _ below
      have grown := size_adopt inner (below.filter (·.name = label.name))
      rw [isRecursive, Bool.or_eq_true, Bool.or_eq_true, ← inside_iff, ← outside_iff, size,
        List.contains_iff_mem, List.mem_reverse]
      rcases outcome with ⟨recursive, total, _, rfl, rfl⟩ | ⟨fresh, rfl, rfl⟩
      · refine ⟨inside + outside + 1, ?_, by simp [recursive]⟩
        rw [List.map_append, List.map_cons, List.sum_append, List.sum_cons, Node.leaving, grown]
        omega
      · refine ⟨inside + outside, ?_, ?_⟩
        · rw [List.map_append, List.sum_append, size, grown]
          omega
        · rw [or_iff_right fresh]
          omega

/-- Nodes whose levels are their depths have the levels that numbering gives them. -/
theorem renumber_of_levels {above : CallPath}
    (levels : ∀ place ∈ forest.located above, place.2.level = place.1.length - 1) :
    forest.renumber above.length = forest := by
  induction forest generalizing above with
  | nil => rfl
  | node label children siblings childrenHypothesis siblingsHypothesis =>
      simp only [located, List.forall_mem_cons, List.forall_mem_append] at levels
      obtain ⟨own, inChildren, inSiblings⟩ := levels
      have inside := childrenHypothesis inChildren
      rw [List.length_append, List.length_singleton] at own inside
      have level : (above.length : Int) = label.level := by
        rw [own]
        omega
      rw [renumber, siblingsHypothesis inSiblings]
      rw [Int.natCast_succ] at inside
      rw [inside, level]

end Forest

namespace CallTree

/-- No node has the name of a node above it, the root apart. -/
def RecursionFree (tree : CallTree) : Prop :=
  ∀ entry ∈ tree.children.ancestry [], ∀ outer ∈ entry.2, outer.name ≠ entry.1.name

instance (tree : CallTree) : Decidable tree.RecursionFree :=
  inferInstanceAs (Decidable
    (∀ entry ∈ tree.children.ancestry [], ∀ outer ∈ entry.2, outer.name ≠ entry.1.name))

/-- Collapsing leaves a tree as it is, and so does each of the things it is made of. -/
structure Settled (tree : CallTree) : Prop where
  collapsing : tree.collapseRecursion = .ok tree
  folding : Forest.foldRecursion [] tree.children = .ok (tree.children, [])
  numbering : Forest.renumber (tree.root.level + 1) tree.children = tree.children
  merging : tree.mergeSiblings = .ok tree

variable {tree collapsed : CallTree}

theorem recursionFree_iff : tree.RecursionFree ↔ Forest.isRecursive [] tree.children = false :=
  (@Forest.isRecursive_eq_false_iff tree.children []).symm

/-- A tree is free of recursion if no path of it names a function twice. -/
theorem recursionFree_of_nodup
    (distinct : ∀ path ∈ (tree.children.located []).map (·.1), path.Nodup) :
    tree.RecursionFree := by
  intro entry member outer above same
  have places := Forest.map_ancestry [] tree.children
  have path := List.mem_map_of_mem (f := fun entry : Node × List Node =>
    ((entry.2.map (·.name)).reverse ++ [entry.1.name], entry.1)) member
  rw [places] at path
  have once := distinct _ (List.mem_map_of_mem (f := (·.1)) path)
  have apart := (List.nodup_append.1 once).2.2 outer.name (by
    rw [List.mem_reverse]
    exact List.mem_map_of_mem above)
  exact apart entry.1.name List.mem_cons_self same

/-- Every path of a collapsed tree is a reduced one. -/
theorem recursionFree_of_collapse (done : tree.collapseRecursion = .ok collapsed) :
    collapsed.RecursionFree := by
  apply recursionFree_of_nodup
  intro path member
  obtain ⟨place, _, _, rfl⟩ := (mem_paths_of_collapse done path).1 member
  exact CallPath.nodup_reduced place.1

/-- A sound tree is settled just where it is free of recursion. -/
theorem Sound.settled_iff (sound : tree.Sound) : tree.Settled ↔ tree.RecursionFree := by
  constructor
  · intro settled
    exact recursionFree_of_collapse settled.collapsing
  · intro free
    have nowhere := recursionFree_iff.1 free
    constructor
    case collapsing => rw [collapseRecursion, nowhere, if_neg Bool.false_ne_true]
    case folding => exact Forest.foldRecursion_of_nonrecursive nowhere
    case numbering =>
      have outermost : tree.root.level + 1 = ([] : CallPath).length := by
        rw [sound.rootLevel]
        rfl
      rw [outermost]
      exact Forest.renumber_of_levels sound.levels
    case merging => exact sound.merging.1

/-- A tree without recursion is settled, and any tree is once it is collapsed. Only a sum that
leaves its width keeps a tree from being collapsed, and none does where the totals fit. -/
theorem settles_of_derived {events : List Event} {tree : CallTree} (derived : Derived events tree) :
    (tree.RecursionFree ↔ tree.Settled) ∧
      (tree.collapseRecursion = .error .addOverflow ∨
        ∃ collapsed, tree.collapseRecursion = .ok collapsed ∧
          collapsed.RecursionFree ∧ collapsed.Settled) ∧
      (tree.Fits → tree.collapseRecursion ≠ .error .addOverflow) := by
  refine ⟨derived.sound.settled_iff.symm, ?_, ?_⟩
  · by_cases overflows : tree.collapseRecursion = .error .addOverflow
    · exact .inl overflows
    · obtain ⟨collapsed, done⟩ := (overflows_collapseRecursion tree).exists_ok overflows
      have free := recursionFree_of_collapse done
      exact .inr ⟨collapsed, done, free, (derived.collapsed done).sound.settled_iff.2 free⟩
  · intro fits overflows
    obtain ⟨collapsed, done, _⟩ := fits.exists_collapsed
    rw [overflows] at done
    cases done

theorem settles_of_derived_intertwined :
    ∃ tree, Derived intertwined tree ∧ ¬ tree.RecursionFree ∧
      ∃ collapsed, tree.collapseRecursion = .ok collapsed ∧ collapsed.RecursionFree ∧
        collapsed.Settled := by
  have derived := @Derived.built intertwined _ rfl
  refine ⟨_, derived, by decide, ?_⟩
  exact (settles_of_derived derived).2.1.resolve_left nofun

end CallTree

end CallProfiler
