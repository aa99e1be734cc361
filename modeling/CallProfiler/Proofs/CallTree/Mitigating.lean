import CallProfiler.CallTree.Mitigation
import CallProfiler.Proofs.CallTree.Places
import CallProfiler.Proofs.Outcome

/-!
# What mitigation leaves alone

Mitigation changes elapsed times and the mark that says so, and nothing else. `Retimed` relates
two trees of which one has other elapsed times than the other; whatever does not look at these
is the same for both.
-/

namespace CallProfiler

/-- A node without its elapsed time. -/
def Node.untimed (node : Node) : Node := { node with realtime := 0, mitigated := false }

namespace Forest

/-- Labels that keep their names keep their places. -/
theorem located_map {relabel : Node → Node} (keepsName : ∀ node, (relabel node).name = node.name)
    (above : CallPath) (forest : Forest Node) :
    (forest.map relabel).located above =
      (forest.located above).map fun place => (place.1, relabel place.2) := by
  induction forest generalizing above with
  | nil => rfl
  | node label children siblings childrenHypothesis siblingsHypothesis =>
      simp only [map, located, keepsName, childrenHypothesis, siblingsHypothesis, List.map_cons,
        List.map_append]

/-- Mitigating one node keeps all but its time, wherever it ends. -/
theorem untimed_of_mitigate {calibration : Calibration} {children : Forest Node}
    {node mitigated : Node} (done : node.mitigate calibration children = .ok mitigated) :
    mitigated.untimed = node.untimed := by
  rw [Node.mitigate] at done
  split at done
  · cases done
    rfl
  · obtain ⟨calls, _, done⟩ := bind_eq_ok_iff.1 done
    obtain ⟨cost, _, done⟩ := bind_eq_ok_iff.1 done
    obtain ⟨least, _, done⟩ := bind_eq_ok_iff.1 done
    cases done
    rfl

theorem map_untimed_mitigate (calibration : Calibration) (forest : Forest Node) :
    (forest.mitigate calibration).1.map Node.untimed = forest.map Node.untimed := by
  induction forest with
  | nil => rfl
  | node label children siblings childrenHypothesis siblingsHypothesis =>
      rw [mitigate]
      split
      · rename_i inner reached stopped
        rw [stopped] at childrenHypothesis
        simp only [map, childrenHypothesis]
      · rename_i inner finished
        rw [finished] at childrenHypothesis
        split
        · simp only [map, childrenHypothesis]
        · rename_i node done
          simp only [map, childrenHypothesis, siblingsHypothesis, untimed_of_mitigate done]

/-- What is true of all nodes, their times apart, is true of the same nodes with other times. -/
theorem forall_of_untimed {first second : Forest Node}
    (same : first.map Node.untimed = second.map Node.untimed)
    {good : Node → Prop} (timeless : ∀ node, good node.untimed ↔ good node)
    (all : ∀ node ∈ second.preorder, good node) : ∀ node ∈ first.preorder, good node := by
  have nodes := congrArg preorder same
  rw [preorder_map, preorder_map] at nodes
  intro node member
  have untimed : node.untimed ∈ second.preorder.map Node.untimed := by
    rw [← nodes]
    exact List.mem_map_of_mem member
  obtain ⟨other, inSecond, sameNode⟩ := List.mem_map.1 untimed
  rw [← timeless, ← sameNode, timeless]
  exact all other inSecond

/-- What does not look at times is the same for the outermost nodes. -/
theorem map_tops_of_untimed {first second : Forest Node}
    (same : first.map Node.untimed = second.map Node.untimed) {β : Type} {observe : Node → β}
    (timeless : ∀ node, observe node.untimed = observe node) :
    first.tops.map observe = second.tops.map observe := by
  have untimed (forest : Forest Node) :
      (forest.map Node.untimed).tops.map observe = forest.tops.map observe := by
    rw [tops_map, List.map_map]
    exact List.map_congr_left fun node _ => timeless node
  rw [← untimed, same, untimed]

end Forest

namespace CallTree

/-- One tree is the other with other elapsed times. -/
structure Retimed (tree full : CallTree) : Prop where
  name : full.root.name = tree.root.name
  level : full.root.level = tree.root.level
  children : full.children.map Node.untimed = tree.children.map Node.untimed

theorem Retimed.refl (tree : CallTree) : Retimed tree tree := ⟨rfl, rfl, rfl⟩

/-- What a mitigated tree went through: nothing without a calibration, and else its children
were mitigated and its root got new totals. -/
theorem mitigated_eq_ok {calibration : Calibration} {tree full : CallTree}
    (done : tree.mitigated calibration = .ok full) :
    full = tree ∨ tree.children.mitigate calibration = (full.children, none) ∧
      ∃ realtime cpu, full.children.realtime = .ok realtime ∧ full.children.cpu = .ok cpu ∧
        full.root = { tree.root with realtime, cpu } := by
  rw [mitigated, mitigate] at done
  split at done
  · rename_i mitigatedEq
    split at mitigatedEq
    · split at mitigatedEq
      · cases mitigatedEq
      · rename_i finished
        split at mitigatedEq
        · cases mitigatedEq
        · rename_i totalledEq
          cases mitigatedEq
          cases done
          obtain ⟨realtime, sumRealtime, rest⟩ := bind_eq_ok_iff.1 totalledEq
          obtain ⟨cpu, sumCpu, totalled⟩ := bind_eq_ok_iff.1 rest
          cases totalled
          exact .inr ⟨finished, realtime, cpu, sumRealtime, sumCpu, rfl⟩
    · cases mitigatedEq
      cases done
      exact .inl rfl
  · cases done

/-- A mitigated tree has other elapsed times at most. -/
theorem retimed_of_mitigated {calibration : Calibration} {tree full : CallTree}
    (done : tree.mitigated calibration = .ok full) : Retimed tree full := by
  rcases mitigated_eq_ok done with rfl | ⟨finished, _, _, _, _, root⟩
  · exact .refl full
  · have children := Forest.map_untimed_mitigate calibration tree.children
    rw [finished] at children
    exact ⟨by rw [root], by rw [root], children⟩

section Retimed

variable {tree full : CallTree}

theorem Retimed.places (retimed : Retimed tree full) :
    (full.children.located []).map (fun place => (place.1, place.2.untimed)) =
      (tree.children.located []).map fun place => (place.1, place.2.untimed) := by
  have untimed (forest : Forest Node) := @Forest.located_map Node.untimed (fun _ => rfl) [] forest
  rw [← untimed, ← untimed, retimed.children]

theorem Retimed.paths (retimed : Retimed tree full) :
    (full.children.located []).map (·.1) = (tree.children.located []).map (·.1) := by
  have places := congrArg (List.map Prod.fst) retimed.places
  rw [List.map_map, List.map_map] at places
  exact places

/-- What is true of every place of a tree, its time apart, is true of the retimed one. -/
theorem Retimed.forall_places (retimed : Retimed tree full) {good : CallPath → Node → Prop}
    (timeless : ∀ path node, good path node.untimed ↔ good path node)
    (all : ∀ place ∈ tree.children.located [], good place.1 place.2) :
    ∀ place ∈ full.children.located [], good place.1 place.2 := by
  intro place member
  have inFull : (place.1, place.2.untimed) ∈
      (full.children.located []).map fun place => (place.1, place.2.untimed) :=
    List.mem_map_of_mem member
  rw [retimed.places] at inFull
  obtain ⟨other, inTree, same⟩ := List.mem_map.1 inFull
  obtain ⟨samePath, sameNode⟩ := Prod.mk.injEq .. ▸ same
  rw [← timeless, ← sameNode, ← samePath, timeless]
  exact all other inTree

/-- Siblings have different names whatever their times. -/
theorem Retimed.distinct (retimed : Retimed tree full) (distinct : tree.children.Distinct) :
    full.children.Distinct := by
  intro path
  have names (forest : Forest Node) : (forest.under path).map (·.name) =
      (((forest.located []).map fun place => (place.1, place.2.untimed)).filter fun place =>
        place.1.dropLast = path).map (·.2.name) := by
    rw [Forest.under_eq_filter, List.filter_map, List.map_map, List.map_map]
    rfl
  rw [names, retimed.places, ← names]
  exact distinct path

end Retimed

end CallTree

end CallProfiler
