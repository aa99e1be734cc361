import CallProfiler.CallTree.Merge
import CallProfiler.Proofs.CallPath
import Mathlib.Data.List.Nodup

/-!
# Places in a call tree

The place of a node is its call path, read off the tree: the names from an outermost node down
to it. `located` lists every node with its path; `under` gives the nodes right below one path,
which is how merging and collapsing see a forest.
-/

namespace CallProfiler.Forest

/-- Every node with its call path, in preorder, `above` being the path around the forest. -/
def located (above : CallPath) : Forest Node → List (CallPath × Node)
  | .nil => []
  | .node label children siblings =>
    (above ++ [label.name], label) ::
      (located (above ++ [label.name]) children ++ located above siblings)

/-- The nodes right below a path, from left to right, in all trees that have the path. -/
def under : CallPath → Forest Node → List Node
  | _, .nil => []
  | [], .node label _ siblings => label :: under [] siblings
  | name :: path, .node label children siblings =>
    (if label.name = name then under path children else []) ++ under (name :: path) siblings

/-- The nodes at a path. -/
def nodesAt (path : CallPath) (forest : Forest Node) : List Node :=
  ((forest.located []).filter fun place => place.1 = path).map (·.2)

/-- No two siblings share a name, wherever they are. -/
def Distinct (forest : Forest Node) : Prop :=
  ∀ path, ((forest.under path).map (·.name)).Nodup

/-- The forest has one node for each distinct path of a list, and no other; every node is at
the level that its path says. -/
structure IsTrie (forest : Forest Node) (paths : List CallPath) : Prop where
  distinct : ((forest.located []).map (·.1)).Nodup
  mem_iff : ∀ path, path ∈ (forest.located []).map (·.1) ↔ path ∈ paths
  level : ∀ place ∈ forest.located [], place.2.level = place.1.length - 1

/-! ## Locating -/

theorem map_snd_located (above : CallPath) (forest : Forest Node) :
    (forest.located above).map (·.2) = forest.preorder := by
  induction forest generalizing above with
  | nil => rfl
  | node label children siblings childrenHypothesis siblingsHypothesis =>
      simp [located, preorder, childrenHypothesis, siblingsHypothesis]

@[simp] theorem located_append (above : CallPath) (first second : Forest Node) :
    (first.append second).located above = first.located above ++ second.located above := by
  induction first with
  | nil => rfl
  | node label children siblings _ inductionHypothesis =>
      simp [append, located, inductionHypothesis]

/-- A path leads through what is around the forest and ends with the name of its node. -/
theorem path_of_mem_located {above : CallPath} {forest : Forest Node} {place : CallPath × Node}
    (member : place ∈ forest.located above) :
    ∃ inner, place.1 = above ++ inner ++ [place.2.name] := by
  induction forest generalizing above with
  | nil => cases member
  | node label children siblings childrenHypothesis siblingsHypothesis =>
      rcases List.mem_cons.1 member with rfl | member
      · exact ⟨[], by simp⟩
      · rcases List.mem_append.1 member with inChildren | inSiblings
        · obtain ⟨inner, path⟩ := childrenHypothesis inChildren
          exact ⟨label.name :: inner, by simp [path]⟩
        · exact siblingsHypothesis inSiblings

theorem getLast?_of_mem_located {above : CallPath} {forest : Forest Node}
    {place : CallPath × Node} (member : place ∈ forest.located above) :
    place.1.getLast? = some place.2.name := by
  obtain ⟨inner, path⟩ := path_of_mem_located member
  rw [path, List.getLast?_concat]

theorem dropLast_of_mem_located {above : CallPath} {forest : Forest Node}
    {place : CallPath × Node} (member : place ∈ forest.located above) :
    ∃ inner, place.1.dropLast = above ++ inner := by
  obtain ⟨inner, path⟩ := path_of_mem_located member
  exact ⟨inner, by rw [path, List.dropLast_concat]⟩

theorem dropLast_concat_of_mem_located {forest : Forest Node} {place : CallPath × Node}
    (member : place ∈ forest.located []) : place.1 = place.1.dropLast ++ [place.2.name] := by
  obtain ⟨inner, path⟩ := path_of_mem_located member
  rw [path, List.dropLast_concat]

/-! ## Nodes below a path -/

@[simp] theorem under_empty (forest : Forest Node) : forest.under [] = forest.tops := by
  induction forest with
  | nil => rfl
  | node label children siblings _ inductionHypothesis =>
      simp [under, tops, inductionHypothesis]

@[simp] theorem under_nil (path : CallPath) : (nil : Forest Node).under path = [] := by
  cases path <;> rfl

theorem under_cons_node (name : String) (path : CallPath) (label : Node)
    (children siblings : Forest Node) :
    (node label children siblings).under (name :: path) =
      (if label.name = name then children.under path else []) ++
        siblings.under (name :: path) := rfl

@[simp] theorem under_append (path : CallPath) (first second : Forest Node) :
    (first.append second).under path = first.under path ++ second.under path := by
  cases path with
  | nil => simp
  | cons name path =>
      induction first with
      | nil => rfl
      | node label children siblings _ inductionHypothesis =>
          simp [append, under_cons_node, inductionHypothesis]

/-- Nothing is below a path whose first name no outermost node has. -/
theorem under_cons_eq_nil {forest : Forest Node} {name : String}
    (absent : ∀ label ∈ forest.tops, label.name ≠ name) (path : CallPath) :
    forest.under (name :: path) = [] := by
  induction forest with
  | nil => rfl
  | node label children siblings _ inductionHypothesis =>
      have different : label.name ≠ name := absent label (by simp [tops])
      have rest := inductionHypothesis fun other member => absent other (by simp [tops, member])
      simp [under_cons_node, different, rest]

/-- The nodes below a path are those whose own path goes one name further. -/
theorem filter_located (above path : CallPath) (forest : Forest Node) :
    ((forest.located above).filter fun place => place.1.dropLast = above ++ path).map (·.2) =
      forest.under path := by
  induction forest generalizing above path with
  | nil => simp [located]
  | node label children siblings childrenHypothesis siblingsHypothesis =>
      have elsewhere : path.head? ≠ some label.name →
          (children.located (above ++ [label.name])).filter
            (fun place => place.1.dropLast = above ++ path) = [] := by
        intro apart
        apply List.filter_eq_nil_iff.2
        intro place member
        obtain ⟨inner, parent⟩ := dropLast_of_mem_located member
        rw [parent, List.append_assoc, decide_eq_true_eq, List.append_cancel_left_eq]
        rintro rfl
        exact apart rfl
      simp only [located, List.filter_cons, List.filter_append, List.dropLast_concat]
      cases path with
      | nil =>
          have inSiblings := siblingsHypothesis above []
          rw [elsewhere (by simp)]
          simpa [under] using inSiblings
      | cons name path =>
          have inSiblings := siblingsHypothesis above (name :: path)
          by_cases same : label.name = name
          · subst same
            have inChildren := childrenHypothesis (above ++ [label.name]) path
            rw [List.append_assoc, List.singleton_append] at inChildren
            simp [under_cons_node, inChildren, inSiblings]
          · rw [elsewhere (by simpa using Ne.symm same)]
            simp [under_cons_node, same, inSiblings]

theorem under_eq_filter (path : CallPath) (forest : Forest Node) :
    forest.under path =
      ((forest.located []).filter fun place => place.1.dropLast = path).map (·.2) := by
  simpa using (filter_located [] path forest).symm

/-- The paths that go one name further than a path are those of the nodes below it. -/
theorem filter_paths (path : CallPath) (forest : Forest Node) :
    (((forest.located []).map (·.1)).filter fun other => other.dropLast = path) =
      (forest.under path).map fun label => path ++ [label.name] := by
  rw [under_eq_filter, List.map_map, List.filter_map]
  apply List.map_congr_left
  intro place member
  obtain ⟨located, parent⟩ := List.mem_filter.1 member
  have same : place.1.dropLast = path := of_decide_eq_true parent
  rw [dropLast_concat_of_mem_located located, same]
  rfl

/-- No node is at the path around a forest. -/
theorem nodesAt_nil (forest : Forest Node) : forest.nodesAt [] = [] := by
  have nowhere : ((forest.located []).filter fun place => place.1 = []) = [] := by
    apply List.filter_eq_nil_iff.2
    intro place member equal
    have path := dropLast_concat_of_mem_located member
    rw [of_decide_eq_true equal] at path
    simp at path
  rw [nodesAt, nowhere]
  rfl

/-- The nodes at a path are those of its last name below the path around it. -/
theorem nodesAt_concat (path : CallPath) (name : String) (forest : Forest Node) :
    forest.nodesAt (path ++ [name]) = (forest.under path).filter (named name) := by
  rw [under_eq_filter, List.filter_map, List.filter_filter, nodesAt]
  apply congrArg (List.map _)
  apply List.filter_congr
  intro place member
  have ending := dropLast_concat_of_mem_located member
  rw [Bool.eq_iff_iff]
  simp only [decide_eq_true_eq, named, Function.comp_apply, Bool.and_eq_true, beq_iff_eq]
  constructor
  · intro equal
    rw [equal, List.dropLast_concat, List.append_cancel_left_eq] at ending
    exact ⟨by simpa using ending.symm, by rw [equal, List.dropLast_concat]⟩
  · rintro ⟨rfl, rfl⟩
    exact ending

namespace Distinct

variable {forest : Forest Node}

theorem length_nodesAt_le (distinct : forest.Distinct) (path : CallPath) :
    (forest.nodesAt path).length ≤ 1 := by
  rcases path.eq_nil_or_concat' with rfl | ⟨parent, name, rfl⟩
  · rw [nodesAt_nil]
    exact Nat.zero_le 1
  · have once := List.nodup_iff_count_le_one.1 (distinct parent) name
    rw [List.count_eq_countP, List.countP_map, List.countP_eq_length_filter] at once
    rw [nodesAt_concat]
    exact once

/-- Where no siblings share a name, a node is alone at its path. -/
theorem nodesAt_eq (distinct : forest.Distinct) {place : CallPath × Node}
    (member : place ∈ forest.located []) : forest.nodesAt place.1 = [place.2] := by
  have inside : place.2 ∈ forest.nodesAt place.1 :=
    List.mem_map_of_mem (List.mem_filter.2 ⟨member, by simp⟩)
  match forest.nodesAt place.1, distinct.length_nodesAt_le place.1, inside with
  | [only], _, inside => rw [List.mem_singleton.1 inside]

/-- Where no siblings share a name, no two nodes share a path. -/
theorem nodup_paths (distinct : forest.Distinct) : ((forest.located []).map (·.1)).Nodup := by
  rw [List.nodup_iff_count_le_one]
  intro path
  have alone := distinct.length_nodesAt_le path
  rw [nodesAt, List.length_map] at alone
  rw [List.count_eq_countP, List.countP_map, List.countP_eq_length_filter]
  simpa [Function.comp_def, beq_eq_decide] using alone

end Distinct

end CallProfiler.Forest
