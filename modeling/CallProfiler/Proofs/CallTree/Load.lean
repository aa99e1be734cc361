import CallProfiler.Proofs.CallTree.Room

/-!
# What mitigation can make of times

Mitigation lowers the time of a node, but never below the sum of its children, so where an event
is shorter than the events inside it the time of a node may also grow. `reach` is the most that
the outermost nodes can come to in this way, and `load` the most that all nodes can.
-/

namespace CallProfiler

namespace Forest

/-- The time of a forest in which every node is raised to the sum of its children. -/
def reach : Forest Node → Nat
  | .nil => 0
  | .node label children siblings => max label.realtime children.reach + siblings.reach

/-- The times of all nodes of a forest, every node being raised to the sum of its children. -/
def load : Forest Node → Nat
  | .nil => 0
  | .node label children siblings =>
    max label.realtime children.reach + children.load + siblings.load

theorem reach_append (first second : Forest Node) :
    (first.append second).reach = first.reach + second.reach := by
  induction first with
  | nil => simp [append, reach]
  | node label children siblings _ inductionHypothesis =>
      simp only [append, reach, inductionHypothesis, Nat.add_assoc]

theorem load_append (first second : Forest Node) :
    (first.append second).load = first.load + second.load := by
  induction first with
  | nil => simp [append, load]
  | node label children siblings _ inductionHypothesis =>
      simp only [append, load, inductionHypothesis, Nat.add_assoc]

theorem reach_le_load (forest : Forest Node) : forest.reach ≤ forest.load := by
  induction forest with
  | nil => exact Nat.le_refl 0
  | node label children siblings _ inductionHypothesis =>
      rw [reach, load]
      omega

section Merge

variable {ε : Type} {combine : Node → Node → Except ε Node}

theorem reach_mergeInto_le (adds : Adds combine Node.realtime Node.realtime)
    {merged forest result : Forest Node} (done : mergeInto combine merged forest = .ok result) :
    result.reach ≤ merged.reach + forest.reach := by
  induction forest generalizing merged result with
  | nil =>
      cases done
      exact Nat.le_refl _
  | node label children siblings childrenHypothesis siblingsHypothesis =>
      rcases mergeInto_node done with ⟨inner, _, within, rest⟩ |
        ⟨before, survivor, kept, after, node, inner, rfl, _, combined, within, rest⟩
      · have following := siblingsHypothesis rest
        have inside := childrenHypothesis within
        simp only [reach_append, reach] at following inside ⊢
        omega
      · have following := siblingsHypothesis rest
        have inside := childrenHypothesis within
        have own := adds combined
        simp only [reach_append, reach] at following inside ⊢
        omega

theorem load_mergeInto_le (adds : Adds combine Node.realtime Node.realtime)
    {merged forest result : Forest Node} (done : mergeInto combine merged forest = .ok result) :
    result.load ≤ merged.load + forest.load := by
  induction forest generalizing merged result with
  | nil =>
      cases done
      exact Nat.le_refl _
  | node label children siblings childrenHypothesis siblingsHypothesis =>
      rcases mergeInto_node done with ⟨inner, _, within, rest⟩ |
        ⟨before, survivor, kept, after, node, inner, rfl, _, combined, within, rest⟩
      · have following := siblingsHypothesis rest
        have inside := childrenHypothesis within
        have reached := reach_mergeInto_le adds within
        simp only [load_append, load, reach] at following inside reached ⊢
        omega
      · have following := siblingsHypothesis rest
        have inside := childrenHypothesis within
        have reached := reach_mergeInto_le adds within
        have own := adds combined
        simp only [load_append, load] at following inside ⊢
        omega

end Merge

/-! ## What does not look at times -/

section Untimed

variable {first second : Forest Node}

theorem total_eq_of_untimed (same : first.map Node.untimed = second.map Node.untimed)
    {quantity : Node → Nat} (timeless : ∀ node, quantity node.untimed = quantity node) :
    first.total quantity = second.total quantity := by
  have untimed (forest : Forest Node) :
      (forest.map Node.untimed).total quantity = forest.total quantity := by
    rw [total, total, preorder_map, List.map_map]
    exact congrArg List.sum (List.map_congr_left fun node _ => timeless node)
  rw [← untimed, same, untimed]

end Untimed

end Forest

/-! ## Mitigation -/

namespace Calibration

/-- The cost of so many calls fits its width, of bookkeeping and inside callers together. -/
def Affords (calibration : Calibration) (calls : Nat) : Prop :=
  (calibration.selfTime.toNat + calibration.childrenTime.toNat) * calls /
    calibration.samples.toNat < Width.bound 64

instance (calibration : Calibration) (calls : Nat) : Decidable (calibration.Affords calls) :=
  inferInstanceAs (Decidable (_ < _))

theorem scaled_le (total : UInt64) (calls : Nat) (samples : UInt32) :
    scaled total calls samples ≤ total.toNat * calls / samples.toNat := by
  rw [scaled]
  split
  · exact Nat.zero_le _
  · exact Nat.mod_le _ _

theorem Affords.cost_lt {calibration : Calibration} {calls own inside : Nat}
    (affords : calibration.Affords calls) (ownLe : own ≤ calls) (insideLe : inside ≤ calls) :
    calibration.selfOverhead own + calibration.childrenOverhead inside < Width.bound 64 := by
  refine Nat.lt_of_le_of_lt ?_ affords
  calc calibration.selfOverhead own + calibration.childrenOverhead inside
      ≤ calibration.selfTime.toNat * own / calibration.samples.toNat +
          calibration.childrenTime.toNat * inside / calibration.samples.toNat :=
        Nat.add_le_add (scaled_le _ _ _) (scaled_le _ _ _)
    _ ≤ (calibration.selfTime.toNat * own + calibration.childrenTime.toNat * inside) /
          calibration.samples.toNat := Nat.div_add_div_le_add_div
    _ ≤ _ := by
        rw [Nat.add_mul]
        exact Nat.div_le_div_right
          (Nat.add_le_add (Nat.mul_le_mul_left _ ownLe) (Nat.mul_le_mul_left _ insideLe))

end Calibration

/-- A node that was not mitigated yet loses its cost if that and its children's totals fit. -/
theorem Node.mitigate_of_fits {calibration : Calibration} {children : Forest Node} {node : Node}
    (fresh : node.mitigated = false) (calls : (children.tops.map (·.count)).sum < Width.bound 64)
    (cost : calibration.selfOverhead node.count +
      calibration.childrenOverhead (children.tops.map (·.count)).sum < Width.bound 64)
    (time : children.time < Width.bound 64) :
    node.mitigate calibration children = .ok { node with
      realtime := max (node.realtime - (calibration.selfOverhead node.count +
        calibration.childrenOverhead (children.tops.map (·.count)).sum)) children.time
      mitigated := true } := by
  have counted : children.calls = .ok (children.tops.map (·.count)).sum :=
    Checked.sum_eq_ok_iff.2 ⟨calls, rfl⟩
  rw [mitigate, fresh, if_neg Bool.false_ne_true, counted, ok_bind,
    Checked.add_eq_ok_iff.2 ⟨cost, rfl⟩, ok_bind, Forest.realtime_of_time time, ok_bind]
  rfl

/-- A node is mitigated if its children's totals and its cost fit. -/
theorem Node.exists_mitigate {calibration : Calibration} {children : Forest Node} {node : Node}
    {calls : Nat} (affords : calibration.Affords calls) (own : node.count ≤ calls)
    (inside : (children.tops.map (·.count)).sum ≤ calls) (few : calls < Width.bound 64)
    (time : children.time < Width.bound 64) :
    ∃ mitigated, node.mitigate calibration children = .ok mitigated ∧
      mitigated.realtime ≤ max node.realtime children.time := by
  cases fresh : node.mitigated with
  | true => exact ⟨node, by rw [mitigate, if_pos fresh], Nat.le_max_left _ _⟩
  | false =>
      refine ⟨_, mitigate_of_fits fresh (Nat.lt_of_le_of_lt inside few)
        (affords.cost_lt own inside) time, ?_⟩
      exact max_le_max (Nat.sub_le _ _) (Nat.le_refl _)

namespace Forest

variable {calibration : Calibration} {calls : Nat}

/-- Mitigation of a forest whose load fits reaches its end, and no time exceeds the load. -/
theorem exists_mitigate (affords : calibration.Affords calls) (few : calls < Width.bound 64)
    {forest : Forest Node} (counts : forest.total (·.count) ≤ calls)
    (room : forest.load < Width.bound 64) :
    ∃ mitigated, forest.mitigate calibration = (mitigated, none) ∧
      mitigated.time ≤ forest.reach ∧ mitigated.total (·.realtime) ≤ forest.load := by
  induction forest with
  | nil => exact ⟨.nil, rfl, Nat.le_refl 0, Nat.le_refl 0⟩
  | node label children siblings childrenHypothesis siblingsHypothesis =>
      rw [total_node] at counts
      rw [load] at room
      obtain ⟨inner, within, innerTime, innerTotal⟩ :=
        childrenHypothesis (by omega) (by omega)
      obtain ⟨rest, beside, restTime, restTotal⟩ := siblingsHypothesis (by omega) (by omega)
      have same := map_untimed_mitigate calibration children
      rw [within] at same
      have sameCounts : inner.total (·.count) = children.total (·.count) :=
        total_eq_of_untimed same fun _ => rfl
      have tops := sum_tops_le_total (·.count) inner
      have reached := reach_le_load children
      obtain ⟨node, mitigated, time⟩ := @Node.exists_mitigate calibration inner label calls affords
        (by omega) (by omega) few (by omega)
      refine ⟨.node node inner rest, ?_, ?_, ?_⟩
      · rw [mitigate, within]
        dsimp only
        rw [mitigated, beside]
      · rw [time_node, reach]
        omega
      · rw [total_node, load]
        omega

end Forest

namespace CallTree

/-- The root gets its totals if they fit. -/
theorem withRootTotals_of_fits {tree : CallTree} (time : tree.children.time < Width.bound 64)
    (cpu : (tree.children.tops.map (·.cpu)).sum < Width.bound 64) :
    tree.withRootTotals = .ok { tree with root := { tree.root with
      realtime := tree.children.time
      cpu := (tree.children.tops.map (·.cpu)).sum } } := by
  have sumCpu : tree.children.cpu = .ok (tree.children.tops.map (·.cpu)).sum :=
    Checked.sum_eq_ok_iff.2 ⟨cpu, rfl⟩
  rw [withRootTotals, Forest.realtime_of_time time, sumCpu]
  rfl

/-- Mitigation of a tree whose load fits comes to a value that fits. -/
theorem Fits.exists_mitigated {calibration : Calibration} {tree : CallTree} {calls : Nat}
    (fits : tree.Fits) (affords : calibration.Affords calls) (few : calls < Width.bound 64)
    (counts : tree.children.total (·.count) ≤ calls)
    (room : tree.children.load < Width.bound 64) :
    ∃ full, tree.mitigated calibration = .ok full ∧ full.Fits := by
  obtain ⟨children, finished, _, total⟩ := Forest.exists_mitigate affords few counts room
  have same := Forest.map_untimed_mitigate calibration tree.children
  rw [finished] at same
  have sameTotal {quantity : Node → Nat}
      (timeless : ∀ node, quantity node.untimed = quantity node) :
      children.total quantity = tree.children.total quantity :=
    Forest.total_eq_of_untimed same timeless
  have childrenFit : children.Fits := by
    constructor
    case realtime => exact Nat.lt_of_le_of_lt total room
    case cpu => rw [sameTotal fun _ => rfl]; exact fits.children.cpu
    case count => rw [sameTotal fun _ => rfl]; exact fits.children.count
    case nodes => rw [sameTotal fun _ => rfl]; exact fits.children.nodes
    case counted => exact Forest.forall_of_untimed same (fun _ => Iff.rfl) fits.children.counted
  rw [mitigated, mitigate]
  by_cases calibrated : calibration.isCalibrated = true
  · have time := Nat.lt_of_le_of_lt (Forest.time_le_total children) childrenFit.realtime
    have cpu := Nat.lt_of_le_of_lt (Forest.sum_tops_le_total (·.cpu) children) childrenFit.cpu
    have totals := @withRootTotals_of_fits { tree with children } time cpu
    rw [if_pos calibrated, finished]
    dsimp only
    rw [totals]
    exact ⟨_, rfl, childrenFit, time, cpu, fits.count, fits.recursions⟩
  · rw [if_neg calibrated]
    exact ⟨tree, rfl, fits⟩

theorem load_of_build_le {events : List Event} {tree : CallTree}
    (built : build events = .ok tree) :
    tree.children.load ≤ (Forest.ofEvents events).load := by
  have load := Forest.load_mergeInto_le Node.adds_realtime.absorbSingle (build_eq_ok built).2.1
  rwa [Forest.load, Nat.zero_add] at load

end CallTree

end CallProfiler
