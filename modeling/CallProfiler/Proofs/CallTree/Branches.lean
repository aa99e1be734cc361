import CallProfiler.Proofs.CallTree.Places

/-!
# Branches of a call tree

A branch is a node at its place, together with its children. `branches` lists them; what is
below a path are the children of its branches, and without namesakes among siblings a path has
one branch at most.
-/

namespace CallProfiler

/-- A node of a call tree with its call path and its children. -/
structure Branch where
  path : CallPath
  node : Node
  children : Forest Node

namespace Forest

/-- Every node with its call path and its children, `above` being the path around the forest. -/
def branches (above : CallPath) : Forest Node → List Branch
  | .nil => []
  | .node label children siblings =>
    ⟨above ++ [label.name], label, children⟩ ::
      (branches (above ++ [label.name]) children ++ branches above siblings)

@[simp] theorem branches_append (above : CallPath) (first second : Forest Node) :
    (first.append second).branches above = first.branches above ++ second.branches above := by
  induction first with
  | nil => rfl
  | node label children siblings _ inductionHypothesis =>
      simp [append, branches, inductionHypothesis]

theorem map_place_branches (above : CallPath) (forest : Forest Node) :
    (forest.branches above).map (fun branch => (branch.path, branch.node)) =
      forest.located above := by
  induction forest generalizing above with
  | nil => rfl
  | node label children siblings childrenHypothesis siblingsHypothesis =>
      simp [branches, located, childrenHypothesis, siblingsHypothesis]

theorem mem_located_of_mem_branches {above : CallPath} {forest : Forest Node} {branch : Branch}
    (member : branch ∈ forest.branches above) :
    (branch.path, branch.node) ∈ forest.located above := by
  rw [← map_place_branches]
  exact List.mem_map_of_mem member

theorem nodesAt_eq_map_branches (target : CallPath) (forest : Forest Node) :
    forest.nodesAt target =
      ((forest.branches []).filter (·.path = target)).map (·.node) := by
  rw [nodesAt, ← map_place_branches, List.filter_map, List.map_map]
  rfl

/-- The nodes below a path are the children of the nodes that have it. -/
theorem under_cons_eq_flatMap (above : CallPath) (name : String) (path : CallPath)
    (forest : Forest Node) :
    forest.under (name :: path) =
      ((forest.branches above).filter (·.path = above ++ name :: path)).flatMap
        (·.children.tops) := by
  induction forest generalizing above name path with
  | nil => rfl
  | node label children siblings childrenHypothesis siblingsHypothesis =>
      have elsewhere : ∀ target, ¬ (above ++ [label.name] <+: target ∧
            above ++ [label.name] ≠ target) →
          (children.branches (above ++ [label.name])).filter (·.path = target) = [] := by
        intro target apart
        refine List.filter_eq_nil_iff.2 fun branch member equal => apart ?_
        obtain ⟨inner, path⟩ := path_of_mem_located (mem_located_of_mem_branches member)
        rw [of_decide_eq_true equal] at path
        dsimp only at path
        rw [path]
        simp
      rw [under_cons_node, siblingsHypothesis above name path, branches, List.filter_cons,
        List.filter_append]
      by_cases same : label.name = name
      · subst same
        cases path with
        | nil => simp [elsewhere]
        | cons next path =>
            have inChildren := childrenHypothesis (above ++ [label.name]) next path
            rw [List.append_assoc, List.singleton_append] at inChildren
            simp [inChildren]
      · rw [elsewhere (above ++ name :: path) (by simp [same])]
        simp [same]

/-- Where no siblings share a name, a branch is alone at its path. -/
theorem Distinct.filter_branches {forest : Forest Node} (distinct : forest.Distinct)
    {branch : Branch} (member : branch ∈ forest.branches []) :
    (forest.branches []).filter (·.path = branch.path) = [branch] := by
  have alone := distinct.length_nodesAt_le branch.path
  rw [nodesAt_eq_map_branches, List.length_map] at alone
  have inside : branch ∈ (forest.branches []).filter (·.path = branch.path) :=
    List.mem_filter.2 ⟨member, by simp⟩
  generalize (forest.branches []).filter (·.path = branch.path) = found at alone inside ⊢
  match found, alone, inside with
  | [only], _, inside => rw [List.mem_singleton.1 inside]

theorem Distinct.nodesAt_branch {forest : Forest Node} (distinct : forest.Distinct)
    {branch : Branch} (member : branch ∈ forest.branches []) :
    forest.nodesAt branch.path = [branch.node] := by
  rw [nodesAt_eq_map_branches, distinct.filter_branches member]
  rfl

theorem Distinct.under_branch {forest : Forest Node} (distinct : forest.Distinct)
    {branch : Branch} (member : branch ∈ forest.branches []) :
    forest.under branch.path = branch.children.tops := by
  have alone := distinct.filter_branches member
  obtain ⟨inner, path⟩ := path_of_mem_located (mem_located_of_mem_branches member)
  cases same : branch.path with
  | nil =>
      rw [same] at path
      simp at path
  | cons name rest =>
      rw [same] at alone
      rw [under_cons_eq_flatMap [], List.nil_append, alone, List.flatMap_singleton]

end Forest

end CallProfiler
