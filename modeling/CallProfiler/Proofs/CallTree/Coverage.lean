import CallProfiler.CallTree.Mitigation
import CallProfiler.Proofs.CallTree.Branches
import CallProfiler.Proofs.CallTree.Collapsing
import Mathlib.Algebra.Order.BigOperators.Group.List
import Mathlib.Algebra.Order.Group.Nat

/-!
# Time inside and outside of children

A node covers its children if it lasted at least as long as they did together. Folding takes
only a recursive node's exclusive time off the nodes between it and its namesake, while its
children leave them altogether, so a collapsed tree need not cover its children where a full
one does. `collapseRecursion_covers` says where it does, and that elapsed time may be counted
twice but is never lost.
-/

namespace CallProfiler

namespace Forest

/-- Elapsed time of the outermost trees, without regard to any width. -/
def time (forest : Forest Node) : Nat := (forest.tops.map (·.realtime)).sum

end Forest

namespace Branch

/-- The node lasted at least as long as its children together. -/
def Covers (branch : Branch) : Prop := branch.children.time ≤ branch.node.realtime

instance (branch : Branch) : Decidable branch.Covers :=
  inferInstanceAs (Decidable (branch.children.time ≤ branch.node.realtime))

/-- Elapsed time of the node that is in none of its children. -/
def exclusive (branch : Branch) : Nat := branch.node.realtime - branch.children.time

end Branch

/-- What a node that left costs a node of the given name: the time of its children, if it is
taken in and they come back, and the exclusive time that is taken off otherwise. -/
def Folded.charge (name : String) (folded : Folded) : Nat :=
  if folded.name = name then folded.children.time else folded.exclusive

/-- Whether a call is made right inside its namesake. -/
def CallPath.isDirect (path : CallPath) : Bool := path.dropLast.getLast? == path.getLast?

namespace Forest

/-- Every recursive node whose path reduces to the given one, unless its namesake called it
directly, spent no more time in its children than outside of them. -/
def FoldsEvenly (target : CallPath) (above : CallPath) (forest : Forest Node) : Prop :=
  ∀ branch ∈ forest.branches above, branch.path.reduced = target →
    branch.path.isRecursive = true → branch.path.isDirect = false →
      2 * branch.children.time ≤ branch.node.realtime

end Forest

namespace CallTree

/-- The root as a branch; no call path leads to it. -/
def trunk (tree : CallTree) : Branch := ⟨[], tree.root, tree.children⟩

/-- Every node covers its children. -/
def Covers (tree : CallTree) : Prop :=
  ∀ branch ∈ tree.trunk :: tree.children.branches [], branch.Covers

instance (tree : CallTree) : Decidable tree.Covers :=
  inferInstanceAs (Decidable (∀ branch ∈ tree.trunk :: tree.children.branches [], branch.Covers))

/-- The exclusive times of all nodes together. -/
def exclusiveTime (tree : CallTree) : Nat :=
  ((tree.trunk :: tree.children.branches []).map Branch.exclusive).sum

end CallTree

namespace Forest

/-! ## Times of a forest -/

@[simp] theorem time_nil : (nil : Forest Node).time = 0 := rfl

@[simp] theorem time_node (label : Node) (children siblings : Forest Node) :
    (node label children siblings).time = label.realtime + siblings.time := by
  simp [time, tops]

@[simp] theorem time_append (first second : Forest Node) :
    (first.append second).time = first.time + second.time := by
  simp [time]

theorem time_adopt (forest : Forest Node) (own : List Folded) :
    (forest.adopt own).time = forest.time + (own.map (·.children.time)).sum := by
  induction own generalizing forest with
  | nil => simp
  | cons namesake rest inductionHypothesis =>
      rw [adopt_cons, inductionHypothesis, time_append, List.map_cons, List.sum_cons, Nat.add_assoc]

theorem realtime_eq_ok {forest : Forest Node} {sum : Nat} (done : forest.realtime = .ok sum) :
    sum = forest.time := by
  rw [(Checked.sum_eq_ok_iff.1 done).2, Checked.total_eq_sum, time]

theorem branches_adopt (above : CallPath) (forest : Forest Node) (own : List Folded) :
    (forest.adopt own).branches above =
      forest.branches above ++ own.flatMap (·.children.branches above) := by
  induction own generalizing forest with
  | nil => simp
  | cons namesake rest inductionHypothesis =>
      rw [adopt_cons, inductionHypothesis, branches_append, List.flatMap_cons, List.append_assoc]

/-- Exclusive times telescope: with the nodes that do not cover their children they make up
more than the outermost trees lasted, otherwise exactly that. -/
theorem sum_exclusive (above : CallPath) (forest : Forest Node) :
    ((forest.branches above).map Branch.exclusive).sum =
      forest.time +
        ((forest.branches above).map fun branch =>
          branch.children.time - branch.node.realtime).sum := by
  induction forest generalizing above with
  | nil => rfl
  | node label children siblings childrenHypothesis siblingsHypothesis =>
      simp only [branches, List.map_cons, List.map_append, List.sum_cons, List.sum_append,
        childrenHypothesis, siblingsHypothesis, time_node, Branch.exclusive]
      omega

/-! ## Times while folding -/

/-- Every node in the forest covers its children. -/
def CoversBelow (above : CallPath) (forest : Forest Node) : Prop :=
  ∀ branch ∈ forest.branches above, branch.Covers

section Node

variable {path target : CallPath} {label : Node} {children siblings : Forest Node}

theorem CoversBelow.head (covers : (node label children siblings).CoversBelow path) :
    children.time ≤ label.realtime :=
  covers _ List.mem_cons_self

theorem CoversBelow.inChildren (covers : (node label children siblings).CoversBelow path) :
    children.CoversBelow (path ++ [label.name]) := fun branch member =>
  covers branch (List.mem_cons_of_mem _ (List.mem_append_left _ member))

theorem CoversBelow.inSiblings (covers : (node label children siblings).CoversBelow path) :
    siblings.CoversBelow path := fun branch member =>
  covers branch (List.mem_cons_of_mem _ (List.mem_append_right _ member))

theorem FoldsEvenly.inChildren (evenly : (node label children siblings).FoldsEvenly target path) :
    children.FoldsEvenly target (path ++ [label.name]) := fun branch member =>
  evenly branch (List.mem_cons_of_mem _ (List.mem_append_left _ member))

theorem FoldsEvenly.inSiblings (evenly : (node label children siblings).FoldsEvenly target path) :
    siblings.FoldsEvenly target path := fun branch member =>
  evenly branch (List.mem_cons_of_mem _ (List.mem_append_right _ member))

end Node

/-- The time of the nodes that pass is taken off the node between. -/
theorem realtime_of_takeIn {label grown : Node} {own passing : List Folded}
    (taken : own.foldlM Node.takeIn (label.letPass passing) = .ok grown) :
    grown.realtime = label.realtime - (passing.map Folded.exclusive).sum := by
  have kept := Node.takeIn_keeps_realtime.foldlM taken
  exact kept

/-- What remains of a forest, with the exclusive times of the nodes that left it, lasted no
longer than the forest did. -/
theorem time_foldRecursion_le {path : CallPath} {forest remaining : Forest Node}
    {folded : List Folded} (covers : forest.CoversBelow path)
    (done : foldRecursion path.reverse forest = .ok (remaining, folded)) :
    remaining.time + (folded.map Folded.exclusive).sum ≤ forest.time := by
  induction forest generalizing path remaining folded with
  | nil =>
      cases done
      exact Nat.le_refl 0
  | node label children siblings childrenHypothesis siblingsHypothesis =>
      obtain ⟨inner, below, own, passing, node, rest, later, within, beside, ownEq, passingEq,
        taken, outcome⟩ := foldRecursion_node done
      have inChildren := childrenHypothesis covers.inChildren within
      have inSiblings := siblingsHypothesis covers.inSiblings beside
      have parted := List.sum_map_filter_add_sum_map_filter_not (·.name = label.name)
        Folded.exclusive below
      rw [← ownEq, ← passingEq] at parted
      have inside := covers.head
      have between := realtime_of_takeIn taken
      rcases outcome with ⟨_, sum, _, rfl, rfl⟩ | ⟨_, rfl, rfl⟩
      · have leaves : (node.leaving sum (inner.adopt own)).exclusive ≤ node.realtime :=
          Nat.sub_le ..
        simp only [List.map_append, List.map_cons, List.sum_append, List.sum_cons, time_node]
        omega
      · simp only [List.map_append, List.sum_append, time_node]
        omega

/-- What the nodes that left the children of a node cost it. -/
theorem sum_charge_below (name : String) (below : List Folded) :
    (below.map (Folded.charge name)).sum =
      ((below.filter (·.name = name)).map (·.children.time)).sum +
        ((below.filter (·.name ≠ name)).map Folded.exclusive).sum :=
  List.sum_map_ite ..

/-- Where all costs can be paid, there is time for the children that come back. -/
theorem time_adopt_le {name : String} {inner : Forest Node} {below : List Folded} {total : Nat}
    (paid : inner.time + (below.map (Folded.charge name)).sum ≤ total) :
    (inner.adopt (below.filter (·.name = name))).time +
      ((below.filter (·.name ≠ name)).map Folded.exclusive).sum ≤ total := by
  rw [sum_charge_below] at paid
  rw [time_adopt]
  omega

/-- What a node that leaves costs, with all that passed it, can be paid from the time it had
before, if for a namesake its children can. -/
theorem charge_leaving_le {name : String} {node : Node} {children : Forest Node}
    {inside passed total : Nat} (lasted : node.realtime + passed ≤ total)
    (pays : node.name = name → children.time + passed ≤ total) :
    (node.leaving inside children).charge name + passed ≤ total := by
  rw [Folded.charge]
  split
  · exact pays ‹_›
  · show node.realtime - inside + passed ≤ total
    omega

/-- Nodes on their way cost another node no more than their exclusive times, if those that
come back are worth their children. -/
theorem sum_charge_le {name : String} {passing : List Folded}
    (worth : ∀ leaving ∈ passing, leaving.name = name →
      leaving.children.time ≤ leaving.exclusive) :
    (passing.map (Folded.charge name)).sum ≤ (passing.map Folded.exclusive).sum := by
  apply List.sum_le_sum
  intro leaving member
  rw [Folded.charge]
  split
  · exact worth leaving member ‹_›
  · exact Nat.le_refl _

/-- What becomes of the time below a call, where recursion folds evenly at the place it reduces
to: the call can pay for all that left. Of those that go further, each is worth its children. -/
theorem foldRecursion_evenly (target : CallPath) {path : CallPath}
    {forest remaining : Forest Node} {folded : List Folded} (covers : forest.CoversBelow path)
    (evenly : forest.FoldsEvenly target path)
    (done : foldRecursion path.reverse forest = .ok (remaining, folded)) :
    (∀ outer name, path = outer ++ [name] → path.reduced = target →
      remaining.time + (folded.map (Folded.charge name)).sum ≤ forest.time) ∧
    ∀ leaving ∈ folded, CallPath.reduced (path ++ [leaving.name]) = target →
      path.getLast? ≠ some leaving.name → leaving.children.time ≤ leaving.exclusive := by
  induction forest generalizing path remaining folded with
  | nil =>
      cases done
      simp
  | node label children siblings childrenHypothesis siblingsHypothesis =>
      obtain ⟨inner, below, own, passing, node, rest, later, within, beside, ownEq, passingEq,
        taken, outcome⟩ := foldRecursion_node done
      obtain ⟨paid, worth⟩ := childrenHypothesis covers.inChildren evenly.inChildren within
      obtain ⟨paidBeside, worthBeside⟩ :=
        siblingsHypothesis covers.inSiblings evenly.inSiblings beside
      have bound := time_foldRecursion_le covers.inChildren within
      have parted := List.sum_map_filter_add_sum_map_filter_not (·.name = label.name)
        Folded.exclusive below
      have inside := covers.head
      have between := realtime_of_takeIn taken
      rw [← ownEq, ← passingEq] at parted
      have pays : (path ++ [label.name]).reduced = target →
          (inner.adopt own).time + (passing.map Folded.exclusive).sum ≤ children.time := by
        intro home
        rw [ownEq, passingEq]
        exact time_adopt_le (paid path label.name rfl home)
      have upwards : ∀ leaving ∈ passing, leaving.name ∈ path ∧
          (CallPath.reduced (path ++ [leaving.name]) = target →
            leaving.children.time ≤ leaving.exclusive) := by
        intro leaving member
        rw [passingEq] at member
        obtain ⟨inBelow, different, inPath⟩ := name_of_mem_passing within leaving member
        refine ⟨inPath, fun home => worth leaving inBelow ?_ ?_⟩
        · rw [CallPath.reduced_append_concat_of_mem inPath, home]
        · simpa using Ne.symm different
      constructor
      · rintro outer name rfl home
        have passed : (passing.map (Folded.charge name)).sum ≤
            (passing.map Folded.exclusive).sum := by
          refine sum_charge_le fun leaving member same => (upwards leaving member).2 ?_
          rw [same, CallPath.reduced_concat_concat, home]
        have beside := paidBeside outer name rfl home
        rcases outcome with ⟨recursive, sum, _, rfl, rfl⟩ | ⟨_, rfl, rfl⟩
        · have leaves : (node.leaving sum (inner.adopt own)).charge name +
              (passing.map Folded.exclusive).sum ≤ label.realtime := by
            apply charge_leaving_le (by omega)
            intro same
            rw [Node.name_of_foldlM_takeIn taken] at same
            have paid := pays (by rw [same, CallPath.reduced_concat_concat, home])
            omega
          simp only [List.map_append, List.map_cons, List.sum_append, List.sum_cons, time_node]
          omega
        · simp only [List.map_append, List.sum_append, time_node]
          omega
      · rcases outcome with ⟨recursive, sum, sumEq, rfl, rfl⟩ | ⟨_, rfl, rfl⟩
        · rw [List.forall_mem_append, List.forall_mem_cons]
          refine ⟨fun leaving inPassing home _ => (upwards leaving inPassing).2 home, ?_,
            worthBeside⟩
          intro home indirect
          rw [show (node.leaving sum (inner.adopt own)).name = label.name from
            Node.name_of_foldlM_takeIn taken] at home indirect
          have paid := pays home
          have half : 2 * children.time ≤ label.realtime :=
            evenly _ List.mem_cons_self home (by simpa using recursive)
              (by simpa [CallPath.isDirect] using indirect)
          rw [realtime_eq_ok sumEq]
          show (inner.adopt own).time ≤ node.realtime - (inner.adopt own).time
          omega
        · rw [List.forall_mem_append]
          exact ⟨fun leaving inPassing home _ => (upwards leaving inPassing).2 home, worthBeside⟩

/-- Every node of the given path in the forest covers its children. -/
def CoversAt (target above : CallPath) (forest : Forest Node) : Prop :=
  ∀ branch ∈ forest.branches above, branch.path = target → branch.Covers

theorem CoversAt.adopt {target above : CallPath} {forest : Forest Node} {own : List Folded}
    (covers : forest.CoversAt target above)
    (namesakes : ∀ leaving ∈ own, leaving.children.CoversAt target above) :
    (forest.adopt own).CoversAt target above := by
  intro branch member
  rw [branches_adopt, List.mem_append, List.mem_flatMap] at member
  rcases member with inForest | ⟨leaving, inOwn, inLeaving⟩
  · exact covers branch inForest
  · exact namesakes leaving inOwn branch inLeaving

/-- Where recursion folds evenly, folding leaves nodes that cover their children. -/
theorem coversAt_foldRecursion (target : CallPath) {path : CallPath}
    {forest remaining : Forest Node} {folded : List Folded} (covers : forest.CoversBelow path)
    (evenly : forest.FoldsEvenly target path)
    (done : foldRecursion path.reverse forest = .ok (remaining, folded)) :
    remaining.CoversAt target path.reduced ∧
      ∀ leaving ∈ folded,
        leaving.children.CoversAt target (CallPath.reduced (path ++ [leaving.name])) := by
  induction forest generalizing path remaining folded with
  | nil =>
      cases done
      simp [CoversAt, branches]
  | node label children siblings childrenHypothesis siblingsHypothesis =>
      obtain ⟨inner, below, own, passing, node, rest, later, within, beside, ownEq, passingEq,
        taken, outcome⟩ := foldRecursion_node done
      obtain ⟨innerCovers, belowCovers⟩ :=
        childrenHypothesis covers.inChildren evenly.inChildren within
      obtain ⟨restCovers, laterCovers⟩ :=
        siblingsHypothesis covers.inSiblings evenly.inSiblings beside
      have sameName := Node.name_of_foldlM_takeIn taken
      have grownCovers : (inner.adopt own).CoversAt target (path ++ [label.name]).reduced := by
        apply innerCovers.adopt
        intro leaving member
        rw [ownEq] at member
        obtain ⟨inBelow, same⟩ := List.mem_filter.1 member
        have covers := belowCovers leaving inBelow
        rwa [of_decide_eq_true same, CallPath.reduced_concat_concat] at covers
      have passingCovers : ∀ leaving ∈ passing,
          leaving.children.CoversAt target (CallPath.reduced (path ++ [leaving.name])) := by
        intro leaving member
        rw [passingEq] at member
        obtain ⟨inBelow, _, inPath⟩ := name_of_mem_passing within leaving member
        have covers := belowCovers leaving inBelow
        rwa [CallPath.reduced_append_concat_of_mem inPath] at covers
      rcases outcome with ⟨_, sum, _, rfl, rfl⟩ | ⟨fresh, rfl, rfl⟩
      · rw [List.forall_mem_append, List.forall_mem_cons]
        refine ⟨restCovers, passingCovers, ?_, laterCovers⟩
        rw [← sameName] at grownCovers
        exact grownCovers
      · have home : path.reduced ++ [node.name] = (path ++ [label.name]).reduced := by
          rw [sameName, CallPath.reduced_concat_of_not_mem fresh]
        constructor
        · intro branch member same
          rcases List.mem_cons.1 member with rfl | member
          · have paid := (foldRecursion_evenly target covers.inChildren evenly.inChildren within).1
              path label.name rfl (home ▸ same)
            have pays := time_adopt_le paid
            rw [← ownEq, ← passingEq] at pays
            have inside := covers.head
            have between := realtime_of_takeIn taken
            show (inner.adopt own).time ≤ node.realtime
            omega
          · rw [home] at member
            rcases List.mem_append.1 member with inGrown | inRest
            · exact grownCovers branch inGrown same
            · exact restCovers branch inRest same
        · rw [List.forall_mem_append]
          exact ⟨passingCovers, laterCovers⟩

/-- Nothing is taken off the outermost nodes, and none of them leaves. -/
theorem time_foldRecursion_outermost {forest remaining : Forest Node} {folded : List Folded}
    (done : foldRecursion [] forest = .ok (remaining, folded)) : remaining.time = forest.time := by
  rw [time, tops_foldRecursion Node.takeIn_keeps_realtime done, time]

/-- At a path where all nodes cover their children, they do so together. -/
theorem CoversAt.sum_under_le {forest : Forest Node} {target : CallPath} (somewhere : target ≠ [])
    (covers : forest.CoversAt target []) :
    ((forest.under target).map (·.realtime)).sum ≤
      ((forest.nodesAt target).map (·.realtime)).sum := by
  obtain ⟨name, rest, rfl⟩ := List.exists_cons_of_ne_nil somewhere
  rw [under_cons_eq_flatMap [], nodesAt_eq_map_branches, List.map_map, List.map_flatMap,
    List.flatMap_def, List.sum_flatten, List.map_map]
  apply List.sum_le_sum
  intro branch member
  obtain ⟨inForest, same⟩ := List.mem_filter.1 member
  exact covers branch inForest (of_decide_eq_true same)

/-- Renumbering changes no time. -/
theorem map_realtime_under_renumber (level : Int) (forest : Forest Node) (path : CallPath) :
    ((forest.renumber level).under path).map (·.realtime) =
      (forest.under path).map (·.realtime) := by
  rw [under_eq_filter, under_eq_filter, located_renumber, List.filter_map, List.map_map,
    List.map_map, List.map_map]
  rfl

theorem map_realtime_nodesAt_renumber (level : Int) (forest : Forest Node) (path : CallPath) :
    ((forest.renumber level).nodesAt path).map (·.realtime) =
      (forest.nodesAt path).map (·.realtime) := by
  rw [nodesAt, nodesAt, located_renumber, List.filter_map, List.map_map, List.map_map,
    List.map_map]
  rfl

end Forest

namespace CallTree

/-! ## Times of collapsed trees -/

/-- Recursion that reduces to a path folds evenly there. -/
def FoldsEvenly (tree : CallTree) (path : CallPath) : Prop := tree.children.FoldsEvenly path []

section Collapsed

variable {full collapsed : CallTree}

/-- Collapsing keeps the time of the outermost nodes. -/
theorem time_of_collapse (done : full.collapseRecursion = .ok collapsed) :
    collapsed.children.time = full.children.time := by
  rcases collapseRecursion_eq_ok done with ⟨_, rfl⟩ | ⟨remaining, folding, merged, _⟩
  · rfl
  · have sum := Forest.sum_under_mergeInto Node.keeps_name Node.adds_realtime merged []
    rw [Forest.map_realtime_under_renumber] at sum
    rw [← Forest.time_foldRecursion_outermost folding]
    simpa [Forest.time] using sum

/-- A node of a collapsed tree covers its children where recursion folds evenly. -/
theorem covers_of_collapse (covers : full.Covers) (done : full.collapseRecursion = .ok collapsed)
    {branch : Branch} (member : branch ∈ collapsed.children.branches [])
    (evenly : full.FoldsEvenly branch.path) : branch.Covers := by
  have inForest : full.children.CoversBelow [] := fun branch member =>
    covers branch (List.mem_cons_of_mem _ member)
  rcases collapseRecursion_eq_ok done with ⟨_, rfl⟩ | ⟨remaining, folding, merged, _⟩
  · exact inForest branch member
  · have distinct := Forest.distinct_of_mergeInto Node.keeps_name merged
    have below := Forest.sum_under_mergeInto Node.keeps_name Node.adds_realtime merged branch.path
    have combined := Forest.combined_of_mergeInto Node.keeps_name merged branch.path
    have atPath := combined.sum_eq Node.adds_realtime
    rw [Forest.map_realtime_under_renumber, distinct.under_branch member] at below
    rw [Forest.map_realtime_nodesAt_renumber, distinct.nodesAt_branch member] at atPath
    obtain ⟨inner, path⟩ := Forest.path_of_mem_located (Forest.mem_located_of_mem_branches member)
    have somewhere : branch.path ≠ [] := by
      rw [show branch.path = _ from path]
      simp
    have remains := (@Forest.coversAt_foldRecursion branch.path [] _ _ _ inForest evenly folding).1
    rw [CallPath.reduced_nil] at remains
    calc branch.children.time
        = ((remaining.under branch.path).map (·.realtime)).sum := by
          simpa [Forest.time] using below
      _ ≤ ((remaining.nodesAt branch.path).map (·.realtime)).sum :=
          remains.sum_under_le somewhere
      _ = branch.node.realtime := by simpa using atPath.symm

/-- Exclusive times make up at least the time of the root, and just that if all nodes cover
their children. -/
theorem le_exclusiveTime {tree : CallTree} (total : tree.root.realtime = tree.children.time) :
    tree.root.realtime ≤ tree.exclusiveTime ∧
      (tree.exclusiveTime = tree.root.realtime ↔ tree.Covers) := by
  have sum := Forest.sum_exclusive [] tree.children
  have rootless : tree.trunk.exclusive = 0 := by
    show tree.root.realtime - tree.children.time = 0
    omega
  rw [exclusiveTime, List.map_cons, List.sum_cons, rootless]
  refine ⟨by omega, ?_⟩
  have none : ((tree.children.branches []).map fun branch =>
        branch.children.time - branch.node.realtime).sum = 0 ↔
      ∀ branch ∈ tree.children.branches [], branch.Covers := by
    simp [List.sum_eq_zero_iff, Branch.Covers, Nat.sub_eq_zero_iff_le]
  rw [Covers, List.forall_mem_cons, ← none]
  have root : tree.trunk.Covers := Nat.le_of_eq total.symm
  simp only [root, true_and]
  omega

end Collapsed

/-- The root of a built tree lasted as long as the outermost calls. -/
theorem root_of_build {events : List Event} {tree : CallTree} (built : build events = .ok tree) :
    tree.root.realtime = tree.children.time := by
  obtain ⟨_, _, realtime, _⟩ := build_eq_ok built
  exact Forest.realtime_eq_ok realtime

/-- Mitigation keeps the root's time that of its children. -/
theorem root_of_mitigated {calibration : Calibration} {tree full : CallTree}
    (total : tree.root.realtime = tree.children.time)
    (done : tree.mitigated calibration = .ok full) : full.root.realtime = full.children.time := by
  rcases mitigated_eq_ok done with rfl | ⟨_, _, _, sumRealtime, _, root⟩
  · exact total
  · rw [root]
    exact Forest.realtime_eq_ok sumRealtime

/-- Collapsing the recursion of a tree whose nodes cover their children gives a tree in which a
node covers its children wherever recursion folds evenly. Its exclusive times lose nothing, and
they count nothing twice just where all nodes cover their children. -/
theorem collapseRecursion_covers {events : List Event} {tree full : CallTree}
    (built : build events = .ok tree)
    (mitigated : full = tree ∨ ∃ calibration, tree.mitigated calibration = .ok full)
    (covers : full.Covers) (fits : full.collapseRecursion ≠ .error .addOverflow) :
    ∃ collapsed, full.collapseRecursion = .ok collapsed ∧
      collapsed.root.realtime = full.root.realtime ∧
      collapsed.root.realtime = collapsed.children.time ∧
      (∀ branch ∈ collapsed.children.branches [],
        full.FoldsEvenly branch.path → branch.Covers) ∧
      collapsed.root.realtime ≤ collapsed.exclusiveTime ∧
      (collapsed.exclusiveTime = collapsed.root.realtime ↔ collapsed.Covers) := by
  have total : full.root.realtime = full.children.time := by
    rcases mitigated with rfl | ⟨calibration, done⟩
    · exact root_of_build built
    · exact root_of_mitigated (root_of_build built) done
  obtain ⟨collapsed, done⟩ := (overflows_collapseRecursion full).exists_ok fits
  have root := root_of_collapse done
  have sum : collapsed.root.realtime = collapsed.children.time := by
    rw [root, total, time_of_collapse done]
  have exclusive := le_exclusiveTime sum
  exact ⟨collapsed, done, congrArg Node.realtime root, sum,
    fun branch member evenly => covers_of_collapse covers done member evenly,
    exclusive.1, exclusive.2⟩

theorem collapseRecursion_covers_intertwined :
    ∃ tree full, build intertwined = .ok tree ∧ tree.mitigated ⟨100, 200, 300⟩ = .ok full ∧
      full.Covers ∧ full.collapseRecursion ≠ .error .addOverflow ∧
      ∃ collapsed, full.collapseRecursion = .ok collapsed ∧
        collapsed.root.realtime = full.root.realtime ∧
        collapsed.root.realtime = collapsed.children.time ∧
        (∀ branch ∈ collapsed.children.branches [],
          full.FoldsEvenly branch.path → branch.Covers) ∧
        collapsed.root.realtime ≤ collapsed.exclusiveTime ∧
        (collapsed.exclusiveTime = collapsed.root.realtime ↔ collapsed.Covers) :=
  ⟨_, _, rfl, rfl, by decide, nofun,
    @collapseRecursion_covers intertwined _ _ rfl (.inr ⟨⟨100, 200, 300⟩, rfl⟩) (by decide) nofun⟩

/-- A function that calls itself through another one and spends its time in a third. -/
def roundabout : List Event :=
  [.plain "outer" 0 0 100, .plain "through" 1 0 90, .plain "outer" 2 0 80,
    .plain "leaf" 3 0 70]

/-- Indirect recursion with more time inside of its children than outside: the time of the
leaf is counted where it went and in the node it went through. -/
theorem collapseRecursion_roundabout :
    ∃ tree collapsed, build roundabout = .ok tree ∧ tree.Covers ∧
      tree.collapseRecursion = .ok collapsed ∧ ¬ collapsed.Covers ∧
      collapsed.root.realtime < collapsed.exclusiveTime :=
  ⟨_, _, rfl, by decide, rfl, by decide, by decide⟩

end CallTree

end CallProfiler
