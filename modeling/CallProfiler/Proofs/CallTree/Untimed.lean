import CallProfiler.Proofs.CallTree.Mitigating
import CallProfiler.Proofs.CallTree.Statistics

/-!
# Decisions without times

Merging, folding and summing up read elapsed times only to add them up or take them off each
other. So what they make of a tree they also make, times apart, of the tree without its times:
each theorem below says that of one operation, wherever the operation comes to a value.
-/

namespace CallProfiler

/-- A recursive node on its way, without its times. -/
def Folded.untimed (folded : Folded) : Folded :=
  { folded with exclusive := 0, children := folded.children.map Node.untimed }

/-- A tree without its elapsed times. -/
def CallTree.untimed (tree : CallTree) : CallTree :=
  ⟨tree.root.untimed, tree.children.map Node.untimed⟩

/-- The totals of a name without its elapsed times. -/
def FunctionStat.untimed (stat : FunctionStat) : FunctionStat :=
  { stat with realtime := 0, childrenRealtime := 0 }

/-- No sum of nothing leaves its width. -/
theorem Checked.add_zero_zero (width : Nat) : add width 0 0 = .ok 0 :=
  add_eq_ok_iff.2 ⟨Width.bound_pos width, rfl⟩

namespace Node

theorem absorb_untimed {survivor absorbed node : Node}
    (done : survivor.absorb absorbed = .ok node) :
    survivor.untimed.absorb absorbed.untimed = .ok node.untimed := by
  obtain ⟨_, _, done⟩ := bind_eq_ok_iff.1 done
  obtain ⟨cpu, sumCpu, done⟩ := bind_eq_ok_iff.1 done
  obtain ⟨count, sumCount, done⟩ := bind_eq_ok_iff.1 done
  obtain ⟨removedCalls, sumRemoved, done⟩ := bind_eq_ok_iff.1 done
  obtain ⟨recursions, sumRecursions, done⟩ := bind_eq_ok_iff.1 done
  cases done
  exact bind_eq_ok_iff.2 ⟨0, Checked.add_zero_zero 64, bind_eq_ok_iff.2 ⟨cpu, sumCpu,
    bind_eq_ok_iff.2 ⟨count, sumCount, bind_eq_ok_iff.2 ⟨removedCalls, sumRemoved,
      bind_eq_ok_iff.2 ⟨recursions, sumRecursions, rfl⟩⟩⟩⟩⟩

theorem takeIn_untimed {node grown : Node} {folded : Folded}
    (done : node.takeIn folded = .ok grown) :
    node.untimed.takeIn folded.untimed = .ok grown.untimed := by
  obtain ⟨count, sumCount, done⟩ := bind_eq_ok_iff.1 done
  obtain ⟨removedCalls, sumRemoved, done⟩ := bind_eq_ok_iff.1 done
  obtain ⟨deeper, sumDeeper, done⟩ := bind_eq_ok_iff.1 done
  obtain ⟨recursions, sumRecursions, done⟩ := bind_eq_ok_iff.1 done
  cases done
  exact bind_eq_ok_iff.2 ⟨count, sumCount, bind_eq_ok_iff.2 ⟨removedCalls, sumRemoved,
    bind_eq_ok_iff.2 ⟨deeper, sumDeeper, bind_eq_ok_iff.2 ⟨recursions, sumRecursions, rfl⟩⟩⟩⟩

/-- Nothing can be taken off no time. -/
theorem letPass_untimed (node : Node) (passing : List Folded) :
    node.untimed.letPass (passing.map Folded.untimed) = (node.letPass passing).untimed := by
  simp only [letPass, untimed, Nat.zero_sub]

end Node

namespace Forest

section Map

variable {α β : Type} (relabel : α → β)

theorem map_append (first second : Forest α) :
    (first.append second).map relabel = (first.map relabel).append (second.map relabel) := by
  induction first with
  | nil => rfl
  | node label children siblings _ inductionHypothesis =>
      simp only [append, map, inductionHypothesis]

theorem find?_map (test : β → Bool) (forest : Forest α) :
    (forest.map relabel).find? test =
      (forest.find? fun label => test (relabel label)).map fun found =>
        (relabel found.1, found.2.map relabel) := by
  induction forest with
  | nil => rfl
  | node label children siblings _ inductionHypothesis =>
      by_cases passes : test (relabel label) = true
      · simp [map, find?, passes]
      · simp [map, find?, passes, inductionHypothesis]

theorem map_replace (test : β → Bool) (other : α) (grown forest : Forest α) :
    (replace (fun label => test (relabel label)) other grown forest).map relabel =
      replace test (relabel other) (grown.map relabel) (forest.map relabel) := by
  induction forest with
  | nil => rfl
  | node label children siblings _ inductionHypothesis =>
      by_cases passes : test (relabel label) = true
      · simp [map, replace, passes]
      · simp [map, replace, passes, inductionHypothesis]

end Map

theorem realtime_untimed (forest : Forest Node) : (forest.map Node.untimed).realtime = .ok 0 := by
  have total : Checked.total ((forest.map Node.untimed).tops.map (·.realtime)) = 0 := by
    rw [Checked.total_eq_sum, tops_map, List.map_map]
    exact List.sum_eq_zero fun time member => by
      obtain ⟨node, _, rfl⟩ := List.mem_map.1 member
      rfl
  rw [realtime, Checked.sum_eq_ok_iff, total]
  exact ⟨Width.bound_pos 64, rfl⟩

theorem cpu_untimed (forest : Forest Node) : (forest.map Node.untimed).cpu = forest.cpu := by
  rw [cpu, cpu, tops_map, List.map_map]
  rfl

theorem mergeInto_untimed {merged forest result : Forest Node}
    (done : mergeInto Node.absorb merged forest = .ok result) :
    mergeInto Node.absorb (merged.map Node.untimed) (forest.map Node.untimed) =
      .ok (result.map Node.untimed) := by
  induction forest generalizing merged result with
  | nil =>
      cases done
      rfl
  | node label children siblings childrenHypothesis siblingsHypothesis =>
      have sameTest : (fun other : Node => named label.untimed.name other.untimed) =
          named label.name := rfl
      rw [mergeInto] at done
      rw [map, mergeInto, find?_map, sameTest]
      cases found : merged.find? (named label.name) with
      | none =>
          rw [found] at done
          obtain ⟨inner, within, rest⟩ := bind_eq_ok_iff.1 done
          have following := siblingsHypothesis rest
          rw [map_append] at following
          exact bind_eq_ok_iff.2 ⟨_, childrenHypothesis within, following⟩
      | some pair =>
          obtain ⟨survivor, kept⟩ := pair
          rw [found] at done
          obtain ⟨node, combined, done⟩ := bind_eq_ok_iff.1 done
          obtain ⟨inner, within, rest⟩ := bind_eq_ok_iff.1 done
          have following := siblingsHypothesis rest
          rw [← sameTest, map_replace Node.untimed (named label.untimed.name)] at following
          exact bind_eq_ok_iff.2 ⟨_, Node.absorb_untimed combined,
            bind_eq_ok_iff.2 ⟨_, childrenHypothesis within, following⟩⟩

theorem adopt_untimed (forest : Forest Node) (own : List Folded) :
    (forest.map Node.untimed).adopt (own.map Folded.untimed) =
      (forest.adopt own).map Node.untimed := by
  induction own generalizing forest with
  | nil => rfl
  | cons namesake rest inductionHypothesis =>
      rw [List.map_cons, adopt_cons, adopt_cons, ← inductionHypothesis, map_append]
      rfl

/-- Where nodes go that are folded is told by names alone. -/
theorem foldRecursion_untimed {above : List String} {forest remaining : Forest Node}
    {folded : List Folded} (done : foldRecursion above forest = .ok (remaining, folded)) :
    foldRecursion above (forest.map Node.untimed) =
      .ok (remaining.map Node.untimed, folded.map Folded.untimed) := by
  induction forest generalizing above remaining folded with
  | nil =>
      cases done
      rfl
  | node label children siblings childrenHypothesis siblingsHypothesis =>
      rw [foldRecursion] at done
      obtain ⟨⟨inner, below⟩, within, done⟩ := bind_eq_ok_iff.1 done
      have parted : (below.map Folded.untimed).partition (·.name == label.untimed.name) =
          ((below.partition (·.name == label.name)).1.map Folded.untimed,
            (below.partition (·.name == label.name)).2.map Folded.untimed) := by
        simp only [List.partition_eq_filter_filter, List.filter_map]
        rfl
      obtain ⟨node, taken, done⟩ := bind_eq_ok_iff.1 done
      have grown := foldlM_map_eq_ok (fun _ _ _ => Node.takeIn_untimed) taken
      rw [← Node.letPass_untimed] at grown
      have sameChildren := adopt_untimed inner (below.partition (·.name == label.name)).1
      rw [map, foldRecursion]
      refine bind_eq_ok_iff.2 ⟨_, childrenHypothesis within, ?_⟩
      simp only [parted]
      refine bind_eq_ok_iff.2 ⟨_, grown, ?_⟩
      rw [← adopt, sameChildren]
      by_cases recursive : above.contains label.name = true
      · rw [if_pos recursive] at done
        rw [if_pos (show above.contains label.untimed.name = true from recursive)]
        obtain ⟨inside, _, done⟩ := bind_eq_ok_iff.1 done
        obtain ⟨⟨rest, later⟩, beside, done⟩ := bind_eq_ok_iff.1 done
        cases done
        refine bind_eq_ok_iff.2 ⟨0, realtime_untimed _,
          bind_eq_ok_iff.2 ⟨_, siblingsHypothesis beside, ?_⟩⟩
        simp only [List.map_append, List.map_cons]
        rfl
      · rw [if_neg recursive] at done
        rw [if_neg (show ¬ above.contains label.untimed.name = true from recursive)]
        obtain ⟨⟨rest, later⟩, beside, done⟩ := bind_eq_ok_iff.1 done
        cases done
        refine bind_eq_ok_iff.2 ⟨_, siblingsHypothesis beside, ?_⟩
        simp only [List.map_append]
        rfl

theorem renumber_untimed (level : Int) (forest : Forest Node) :
    (forest.renumber level).map Node.untimed = (forest.map Node.untimed).renumber level := by
  induction forest generalizing level with
  | nil => rfl
  | node label children siblings childrenHypothesis siblingsHypothesis =>
      simp only [renumber, map, childrenHypothesis, siblingsHypothesis]
      rfl

theorem isRecursive_untimed (above : List String) (forest : Forest Node) :
    isRecursive above (forest.map Node.untimed) = isRecursive above forest := by
  induction forest generalizing above with
  | nil => rfl
  | node label children siblings childrenHypothesis siblingsHypothesis =>
      simp only [map, isRecursive, childrenHypothesis, siblingsHypothesis]
      rfl

end Forest

namespace FunctionStat

theorem ofNode_untimed {node : Node} {children : Forest Node} {stat : FunctionStat}
    (done : ofNode node children = .ok stat) :
    ofNode node.untimed (children.map Node.untimed) = .ok stat.untimed := by
  obtain ⟨time, sum, done⟩ := bind_eq_ok_iff.1 done
  cases done
  exact bind_eq_ok_iff.2 ⟨0, Forest.realtime_untimed children, rfl⟩

theorem add_untimed {stat other total : FunctionStat} (done : stat.add other = .ok total) :
    stat.untimed.add other.untimed = .ok total.untimed := by
  obtain ⟨_, _, done⟩ := bind_eq_ok_iff.1 done
  obtain ⟨cpu, sumCpu, done⟩ := bind_eq_ok_iff.1 done
  obtain ⟨_, _, done⟩ := bind_eq_ok_iff.1 done
  obtain ⟨count, sumCount, done⟩ := bind_eq_ok_iff.1 done
  obtain ⟨recursions, sumRecursions, done⟩ := bind_eq_ok_iff.1 done
  cases done
  exact bind_eq_ok_iff.2 ⟨0, Checked.add_zero_zero 64, bind_eq_ok_iff.2 ⟨cpu, sumCpu,
    bind_eq_ok_iff.2 ⟨0, Checked.add_zero_zero 64, bind_eq_ok_iff.2 ⟨count, sumCount,
      bind_eq_ok_iff.2 ⟨recursions, sumRecursions, rfl⟩⟩⟩⟩⟩

theorem collect_untimed {row : FunctionStat} {stats next : List FunctionStat}
    (done : row.collect stats = .ok next) :
    row.untimed.collect (stats.map untimed) = .ok (next.map untimed) := by
  induction stats generalizing next with
  | nil =>
      cases done
      rfl
  | cons held rest inductionHypothesis =>
      rw [collect] at done
      rw [List.map_cons, collect]
      by_cases namesake : held.name = row.name
      · rw [if_pos namesake] at done
        rw [if_pos (show held.untimed.name = row.untimed.name from namesake)]
        obtain ⟨total, added, done⟩ := bind_eq_ok_iff.1 done
        cases done
        exact bind_eq_ok_iff.2 ⟨_, add_untimed added, rfl⟩
      · rw [if_neg namesake] at done
        rw [if_neg (show ¬ held.untimed.name = row.untimed.name from namesake)]
        obtain ⟨grown, collected, done⟩ := bind_eq_ok_iff.1 done
        cases done
        exact bind_eq_ok_iff.2 ⟨_, inductionHypothesis collected, rfl⟩

end FunctionStat

namespace CallTree

/-- Mitigation leaves all but times alone, in the root too if its CPU time was the sum of its
children's before. -/
theorem untimed_of_mitigated {calibration : Calibration} {tree full : CallTree}
    (summed : tree.children.cpu = .ok tree.root.cpu)
    (done : tree.mitigated calibration = .ok full) : full.untimed = tree.untimed := by
  rcases mitigated_eq_ok done with rfl | ⟨_, realtime, cpu, _, sumCpu, root⟩
  · rfl
  · have children := (retimed_of_mitigated done).children
    rw [← Forest.cpu_untimed, children, Forest.cpu_untimed, summed] at sumCpu
    cases sumCpu
    rw [untimed, untimed, children, root]
    rfl

theorem collapseRecursion_untimed {tree collapsed : CallTree}
    (done : tree.collapseRecursion = .ok collapsed) :
    tree.untimed.collapseRecursion = .ok collapsed.untimed := by
  have sameTest : Forest.isRecursive [] tree.untimed.children =
      Forest.isRecursive [] tree.children := Forest.isRecursive_untimed [] tree.children
  rw [collapseRecursion] at done
  rw [collapseRecursion, sameTest]
  split at done
  · rename_i recursive
    rw [if_pos recursive]
    obtain ⟨⟨remaining, folded⟩, folding, done⟩ := bind_eq_ok_iff.1 done
    obtain ⟨children, merged, done⟩ := bind_eq_ok_iff.1 done
    cases done
    have joined := Forest.mergeInto_untimed merged
    rw [Forest.renumber_untimed] at joined
    exact bind_eq_ok_iff.2 ⟨_, Forest.foldRecursion_untimed folding,
      bind_eq_ok_iff.2 ⟨_, joined, rfl⟩⟩
  · rename_i nowhere
    rw [if_neg nowhere]
    cases done
    rfl

/-- Whether statistics are refused is told by names alone. -/
theorem checkRecursion_untimed (tree : CallTree) :
    tree.untimed.checkRecursion = tree.checkRecursion := by
  have sameName : tree.untimed.recursiveName? = tree.recursiveName? := by
    rw [recursiveName?_eq, recursiveName?_eq, untimed,
      @Forest.located_map Node.untimed fun _ => rfl, List.find?_map, Option.map_map]
    rfl
  rw [checkRecursion, checkRecursion, sameName]

theorem totalsByName_untimed {tree : CallTree} {totals : List FunctionStat}
    (done : tree.totalsByName = .ok totals) :
    tree.untimed.totalsByName = .ok (totals.map FunctionStat.untimed) := by
  have entries : tree.untimed.whole.entries =
      tree.whole.entries.map fun entry => (entry.1.untimed, entry.2.map Node.untimed) :=
    Forest.entries_map Node.untimed tree.whole
  rw [totalsByName, entries]
  refine @foldlM_map_eq_ok _ _ _ _ _ _ _ _ _ _ (List.map FunctionStat.untimed) _
    (fun stats entry next added => ?_) done
  obtain ⟨row, ofNode, collected⟩ := bind_eq_ok_iff.1 added
  exact bind_eq_ok_iff.2 ⟨_, FunctionStat.ofNode_untimed ofNode,
    FunctionStat.collect_untimed collected⟩

end CallTree

end CallProfiler
