import CallProfiler.Proofs.CallTree.Coverage
import CallProfiler.Proofs.CallTree.Invariant
import CallProfiler.Proofs.CallTree.Statistics
import CallProfiler.Proofs.CallTree.Totals

/-!
# Room for sums

`Fits` says that the totals over all nodes of a forest leave room within machine widths. Each
operation on such a forest comes to a value, since the sums that it takes are parts of these
totals, and it leaves a forest whose totals leave room again.
-/

namespace CallProfiler

namespace Node

/-- A recursive node is taken in if every total fits. -/
theorem exists_takeIn {node : Node} {folded : Folded}
    (count : node.count + folded.calls < Width.bound 64)
    (removedCalls : node.removedCalls + folded.calls < Width.bound 64)
    (recursions : node.recursions + (1 + folded.recursions) < Width.bound 32) :
    ∃ grown, node.takeIn folded = .ok grown := by
  have deeper : 1 + folded.recursions < Width.bound 32 := by omega
  refine exists_ok_bind (Checked.add_eq_ok_iff.2 ⟨count, rfl⟩) ?_
  refine exists_ok_bind (Checked.add_eq_ok_iff.2 ⟨removedCalls, rfl⟩) ?_
  refine exists_ok_bind (Checked.add_eq_ok_iff.2 ⟨deeper, rfl⟩) ?_
  exact exists_ok_bind (Checked.add_eq_ok_iff.2 ⟨recursions, rfl⟩) ⟨_, rfl⟩

theorem exists_foldlM_takeIn {node : Node} {own : List Folded} (counted : node.Counted)
    (count : Weight.count.node node + (own.map Weight.count.folded).sum < Width.bound 64)
    (nodes : Weight.nodes.node node + (own.map Weight.nodes.folded).sum ≤ Width.bound 32) :
    ∃ grown, own.foldlM takeIn node = .ok grown := by
  induction own generalizing node with
  | nil => exact ⟨node, rfl⟩
  | cons first rest inductionHypothesis =>
      rw [List.map_cons, List.sum_cons] at count nodes
      have removed := counted.2
      obtain ⟨middle, taken⟩ := @exists_takeIn node first
        (by simp only [Weight.count] at count; omega)
        (by simp only [Weight.count] at count; omega)
        (by simp only [Weight.nodes] at nodes; omega)
      have callsGrown := Weight.count.takeIn_le node first middle taken
      have nodesGrown := Weight.nodes.takeIn_le node first middle taken
      obtain ⟨grown, done⟩ := @inductionHypothesis middle
        (CallTree.counted_takeIn node first middle counted taken) (by omega) (by omega)
      exact ⟨grown, by rw [List.foldlM_cons]; exact bind_eq_ok_iff.2 ⟨middle, taken, done⟩⟩

end Node

namespace Forest

/-- The totals of a forest leave room for all sums over parts of it. -/
structure Fits (forest : Forest Node) : Prop where
  realtime : forest.total (·.realtime) < Width.bound 64
  cpu : forest.total (·.cpu) < Width.bound 64
  count : forest.total (·.count) < Width.bound 64
  /-- Every node counts, with the recursive ones that it took in. -/
  nodes : forest.total (fun node => node.recursions + 1) ≤ Width.bound 32
  counted : ∀ node ∈ forest.preorder, node.Counted

section Fits

variable {label : Node} {children siblings forest : Forest Node}

theorem Fits.inChildren (fits : (node label children siblings).Fits) : children.Fits := by
  obtain ⟨realtime, cpu, count, nodes, counted⟩ := fits
  rw [total_node] at realtime cpu count nodes
  simp only [preorder, List.forall_mem_cons, List.forall_mem_append] at counted
  exact ⟨by omega, by omega, by omega, by omega, counted.2.1⟩

theorem Fits.inSiblings (fits : (node label children siblings).Fits) : siblings.Fits := by
  obtain ⟨realtime, cpu, count, nodes, counted⟩ := fits
  rw [total_node] at realtime cpu count nodes
  simp only [preorder, List.forall_mem_cons, List.forall_mem_append] at counted
  exact ⟨by omega, by omega, by omega, by omega, counted.2.2⟩

theorem time_le_total (forest : Forest Node) : forest.time ≤ forest.total (·.realtime) :=
  sum_tops_le_total (·.realtime) forest

/-- Outermost trees whose times fit have a sum. -/
theorem realtime_of_time (fits : forest.time < Width.bound 64) :
    forest.realtime = .ok forest.time :=
  Checked.sum_eq_ok_iff.2 ⟨fits, rfl⟩

/-- Folding comes to a value at a node if it does below and beside it, and its namesakes can be
taken in. -/
theorem exists_foldRecursion_node {path : CallPath} {inner rest : Forest Node}
    {below later : List Folded} {grown : Node} {inside : Nat}
    (within : foldRecursion (path ++ [label.name]).reverse children = .ok (inner, below))
    (beside : foldRecursion path.reverse siblings = .ok (rest, later))
    (taken : (below.filter (·.name = label.name)).foldlM Node.takeIn
      (label.letPass (below.filter (·.name ≠ label.name))) = .ok grown)
    (sum : (inner.adopt (below.filter (·.name = label.name))).realtime = .ok inside) :
    ∃ outcome, foldRecursion path.reverse (node label children siblings) = .ok outcome := by
  rw [List.reverse_append, List.reverse_singleton, List.singleton_append] at within
  rw [foldRecursion]
  refine exists_ok_bind within ?_
  simp only [List.partition_eq_filter_filter, Function.comp_def, beq_eq_decide, ← decide_not]
  refine exists_ok_bind taken ?_
  split
  · exact exists_ok_bind sum (exists_ok_bind beside ⟨_, rfl⟩)
  · exact exists_ok_bind beside ⟨_, rfl⟩

/-- Folding of a forest that fits comes to a value. -/
theorem Fits.exists_foldRecursion (fits : forest.Fits) (path : CallPath) :
    ∃ outcome, foldRecursion path.reverse forest = .ok outcome := by
  induction forest generalizing path with
  | nil => exact ⟨_, rfl⟩
  | node label children siblings childrenHypothesis siblingsHypothesis =>
      obtain ⟨⟨inner, below⟩, within⟩ :=
        childrenHypothesis fits.inChildren (path ++ [label.name])
      obtain ⟨⟨rest, later⟩, beside⟩ := siblingsHypothesis fits.inSiblings path
      generalize ownEq : below.filter (·.name = label.name) = own
      generalize passingEq : below.filter (·.name ≠ label.name) = passing
      -- What the namesakes bring is part of what the children had.
      have bounded (weight : Weight) : inner.total weight.node +
          ((own.map weight.folded).sum +
            (own.map fun folded => folded.children.total weight.node).sum) ≤
          children.total weight.node := by
        have whole := weight.total_foldRecursion_le within
        have part : (own.map weight.pending).sum ≤ (below.map weight.pending).sum := by
          rw [← ownEq]
          exact (List.filter_sublist.map _).sum_le_sum fun _ _ => Nat.zero_le _
        rw [weight.sum_pending] at part
        omega
      obtain ⟨grown, taken⟩ : ∃ grown,
          own.foldlM Node.takeIn (label.letPass passing) = .ok grown := by
        have count : (node label children siblings).total Weight.count.node < Width.bound 64 :=
          fits.count
        have nodes : (node label children siblings).total Weight.nodes.node ≤ Width.bound 32 :=
          fits.nodes
        have countBelow := bounded .count
        have nodesBelow := bounded .nodes
        have countPassed := Weight.count.letPass_le label passing
        have nodesPassed := Weight.nodes.letPass_le label passing
        rw [total_node] at count nodes
        exact Node.exists_foldlM_takeIn (fits.counted label List.mem_cons_self) (by omega)
          (by omega)
      have room : (inner.adopt own).time < Width.bound 64 := by
        have realtime : children.total Weight.realtime.node < Width.bound 64 :=
          fits.inChildren.realtime
        have below := bounded .realtime
        have time : (inner.adopt own).time ≤ (inner.adopt own).total Weight.realtime.node :=
          time_le_total _
        rw [total_adopt] at time
        omega
      rw [← ownEq, ← passingEq] at taken
      rw [← ownEq] at room
      exact exists_foldRecursion_node within beside taken (realtime_of_time room)

/-- What folding leaves fits. -/
theorem Fits.folded {path : CallPath} {remaining : Forest Node} {folded : List Folded}
    (fits : forest.Fits) (done : foldRecursion path.reverse forest = .ok (remaining, folded)) :
    remaining.Fits := by
  have bounded (weight : Weight) : remaining.total weight.node ≤ forest.total weight.node :=
    Nat.le_trans (Nat.le_add_right _ _) (weight.total_foldRecursion_le done)
  constructor
  case realtime => exact Nat.lt_of_le_of_lt (bounded .realtime) fits.realtime
  case cpu => exact Nat.lt_of_le_of_lt (bounded .cpu) fits.cpu
  case count => exact Nat.lt_of_le_of_lt (bounded .count) fits.count
  case nodes => exact Nat.le_trans (bounded .nodes) fits.nodes
  case counted =>
    exact (forall_foldRecursion CallTree.counted_takeIn (fun _ _ counted => counted)
      fits.counted done).1

theorem Fits.renumber (fits : forest.Fits) (level : Int) : (forest.renumber level).Fits := by
  have same {quantity : Node → Nat} (leveled : ∀ (node : Node) (level : Int),
      quantity { node with level } = quantity node) :
      (forest.renumber level).total quantity = forest.total quantity :=
    total_renumber leveled forest level
  constructor
  case realtime => rw [same fun _ _ => rfl]; exact fits.realtime
  case cpu => rw [same fun _ _ => rfl]; exact fits.cpu
  case count => rw [same fun _ _ => rfl]; exact fits.count
  case nodes => rw [same fun _ _ => rfl]; exact fits.nodes
  case counted => exact forall_renumber (fun _ _ counted => counted) fits.counted level

/-- The recursive nodes that were taken in are fewer than all nodes. -/
theorem recursions_lt_nodes (member : label ∈ forest.preorder) :
    forest.total (·.recursions) < forest.total (fun node => node.recursions + 1) := by
  have nodes : forest.total (fun node => node.recursions + 1) =
      forest.total (·.recursions) + forest.preorder.length := by
    rw [total, List.sum_map_add, total]
    simp
  have some := List.length_pos_of_mem member
  omega

/-- Merging of a forest that fits comes to a value. -/
theorem Fits.exists_merged (fits : forest.Fits) :
    ∃ merged, mergeInto Node.absorb .nil forest = .ok merged := by
  have removedCalls : forest.total (·.removedCalls) ≤ forest.total (·.count) :=
    total_le_total fun node member => (fits.counted node member).2
  have recursions : forest.total (·.recursions) < Width.bound 32 := by
    cases nodes : forest.preorder with
    | nil =>
        rw [total, nodes]
        exact Width.bound_pos 32
    | cons label rest =>
        have member : label ∈ forest.preorder := by
          rw [nodes]
          exact List.mem_cons_self
        exact Nat.lt_of_lt_of_le (recursions_lt_nodes member) fits.nodes
  apply (merges_iff Node.keeps_name).2
  intro path
  exact Node.combinable_of_sumsFit (sumsFit_of_total fits.realtime fits.cpu fits.count
    (Nat.lt_of_le_of_lt removedCalls fits.count) recursions path)

/-- What merging leaves fits. -/
theorem Fits.merged {merged : Forest Node} (fits : forest.Fits)
    (done : mergeInto Node.absorb .nil forest = .ok merged) : merged.Fits := by
  have bounded {quantity : Node → Nat} (combining : ∀ survivor absorbed node,
      Node.absorb survivor absorbed = .ok node →
        quantity node ≤ quantity survivor + quantity absorbed) :
      merged.total quantity ≤ forest.total quantity := by
    have total := total_mergeInto_le combining done
    rwa [total_nil, Nat.zero_add] at total
  constructor
  case realtime =>
    exact Nat.lt_of_le_of_lt (bounded fun _ _ _ done => Nat.le_of_eq (Node.adds_realtime done))
      fits.realtime
  case cpu =>
    exact Nat.lt_of_le_of_lt (bounded fun _ _ _ done => Nat.le_of_eq (Node.adds_cpu done)) fits.cpu
  case count =>
    exact Nat.lt_of_le_of_lt (bounded fun _ _ _ done => Nat.le_of_eq (Node.adds_count done))
      fits.count
  case nodes =>
    refine Nat.le_trans (bounded fun survivor absorbed node done => ?_) fits.nodes
    rw [Node.adds_recursions done]
    omega
  case counted =>
    exact forall_mergeInto CallTree.counted_absorb (by simp [preorder]) fits.counted done

end Fits

end Forest

namespace FunctionStat

/-! ## Statistics -/

/-- The sums over some rows fit their widths. -/
structure RowsFit (rows : List FunctionStat) : Prop where
  realtime : (rows.map (·.realtime)).sum < Width.bound 64
  cpu : (rows.map (·.cpu)).sum < Width.bound 64
  childrenRealtime : (rows.map (·.childrenRealtime)).sum < Width.bound 64
  count : (rows.map (·.count)).sum < Width.bound 64
  recursions : (rows.map (·.recursions)).sum < Width.bound 32

theorem RowsFit.sublist {part rows : List FunctionStat} (fit : RowsFit rows)
    (sub : part.Sublist rows) : RowsFit part := by
  have le (quantity : FunctionStat → Nat) :
      (part.map quantity).sum ≤ (rows.map quantity).sum :=
    (sub.map quantity).sum_le_sum fun _ _ => Nat.zero_le _
  exact ⟨Nat.lt_of_le_of_lt (le _) fit.realtime, Nat.lt_of_le_of_lt (le _) fit.cpu,
    Nat.lt_of_le_of_lt (le _) fit.childrenRealtime, Nat.lt_of_le_of_lt (le _) fit.count,
    Nat.lt_of_le_of_lt (le _) fit.recursions⟩

/-- A row is added to an entry if the sums over all its rows fit. -/
theorem IsTotal.exists_add {stat row : FunctionStat} {rows : List FunctionStat}
    (isTotal : stat.IsTotal rows) (fit : RowsFit (rows ++ [row])) :
    ∃ total, stat.add row = .ok total := by
  obtain ⟨realtime, cpu, childrenRealtime, count, recursions⟩ := fit
  simp only [List.map_append, List.map_singleton, List.sum_append, List.sum_singleton,
    ← isTotal.realtime, ← isTotal.cpu, ← isTotal.childrenRealtime, ← isTotal.count,
    ← isTotal.recursions] at realtime cpu childrenRealtime count recursions
  simp only [FunctionStat.add, Checked.add, realtime, cpu, childrenRealtime, count, recursions,
    if_true]
  exact ⟨_, rfl⟩

/-- A row is collected if the sums over all rows of its name fit. -/
theorem Summarizes.exists_collect {stats rows : List FunctionStat} {row : FunctionStat}
    (summarizes : Summarizes stats rows)
    (fit : RowsFit ((rows ++ [row]).filter (·.name = row.name))) :
    ∃ next, row.collect stats = .ok next := by
  have adds : ∀ held ∈ stats, held.name = row.name → ∃ total, held.add row = .ok total := by
    intro held member namesake
    have isTotal := summarizes.total held member
    rw [namesake] at isTotal
    rw [List.filter_append, List.filter_cons_of_pos (by simp), List.filter_nil] at fit
    exact isTotal.exists_add fit
  clear summarizes fit
  induction stats with
  | nil => exact ⟨[row], rfl⟩
  | cons held rest inductionHypothesis =>
      rw [FunctionStat.collect]
      split
      · rename_i namesake
        obtain ⟨total, added⟩ := adds held List.mem_cons_self namesake
        exact exists_ok_bind added ⟨_, rfl⟩
      · obtain ⟨next, collected⟩ := inductionHypothesis fun other member =>
          adds other (List.mem_cons_of_mem held member)
        exact exists_ok_bind collected ⟨_, rfl⟩

/-- All rows are collected if the sums over the rows of every name fit. -/
theorem Summarizes.exists_foldlM {entries : List (Node × Forest Node)}
    {first before : List FunctionStat} (start : Summarizes first before)
    (times : ∀ entry ∈ entries, entry.2.time < Width.bound 64)
    (fit : ∀ name, RowsFit ((before ++ entries.map fun entry => alone entry.1 entry.2).filter
      (·.name = name))) :
    ∃ last, entries.foldlM (fun stats entry => do
      let stat ← ofNode entry.1 entry.2
      stat.collect stats) first = .ok last := by
  induction entries generalizing first before with
  | nil => exact ⟨first, rfl⟩
  | cons entry rest inductionHypothesis =>
      have row : ofNode entry.1 entry.2 = .ok (alone entry.1 entry.2) :=
        bind_eq_ok_iff.2 ⟨_, Forest.realtime_of_time (times entry List.mem_cons_self), rfl⟩
      have regrouped : before ++ (entry :: rest).map (fun entry => alone entry.1 entry.2) =
          before ++ [alone entry.1 entry.2] ++ rest.map fun entry => alone entry.1 entry.2 := by
        simp
      rw [regrouped] at fit
      have here := (fit (alone entry.1 entry.2).name).sublist
        ((List.sublist_append_left _ _).filter _)
      obtain ⟨next, collected⟩ := start.exists_collect here
      obtain ⟨last, done⟩ := inductionHypothesis (start.collect collected)
        (fun other member => times other (List.mem_cons_of_mem entry member)) fit
      rw [List.foldlM_cons]
      exact exists_ok_bind (bind_eq_ok_iff.2 ⟨_, row, collected⟩) ⟨last, done⟩

end FunctionStat

namespace Forest

/-- Every node is either outermost or a child of one node. -/
theorem sum_children_time (forest : Forest Node) :
    (forest.entries.map (·.2.time)).sum + forest.time = forest.total (·.realtime) := by
  induction forest with
  | nil => rfl
  | node label children siblings childrenHypothesis siblingsHypothesis =>
      rw [entries, List.map_cons, List.map_append, List.sum_cons, List.sum_append, time_node,
        total_node]
      dsimp only
      omega

theorem Fits.time_lt_of_mem {forest : Forest Node} (fits : forest.Fits)
    {entry : Node × Forest Node} (member : entry ∈ forest.entries) :
    entry.2.time < Width.bound 64 := by
  have one : entry.2.time ≤ (forest.entries.map (·.2.time)).sum :=
    List.le_sum_of_mem (List.mem_map_of_mem member)
  have all := sum_children_time forest
  have room := fits.realtime
  omega

/-- The rows of a forest that fits do. -/
theorem Fits.rows {forest : Forest Node} (fits : forest.Fits) :
    FunctionStat.RowsFit forest.rows := by
  have sums {observe : FunctionStat → Nat} {quantity : Node → Nat}
      (ofNode : ∀ node children, observe (FunctionStat.alone node children) = quantity node) :
      (forest.rows.map observe).sum = forest.total quantity := by
    rw [map_rows ofNode, total]
  constructor
  case realtime => rw [@sums _ (·.realtime) fun _ _ => rfl]; exact fits.realtime
  case cpu => rw [@sums _ (·.cpu) fun _ _ => rfl]; exact fits.cpu
  case count => rw [@sums _ (·.count) fun _ _ => rfl]; exact fits.count
  case childrenRealtime =>
    have all := sum_children_time forest
    have room := fits.realtime
    rw [Forest.rows, List.map_map]
    show (forest.entries.map (·.2.time)).sum < _
    omega
  case recursions =>
    rw [@sums _ (·.recursions) fun _ _ => rfl]
    cases forest with
    | nil => exact Width.bound_pos 32
    | node label children siblings =>
        exact Nat.lt_of_lt_of_le (@recursions_lt_nodes label _ List.mem_cons_self) fits.nodes

end Forest

namespace CallTree

/-! ## Trees that fit -/

/-- The totals of a tree leave room for all sums over parts of it. -/
structure Fits (tree : CallTree) : Prop where
  children : tree.children.Fits
  realtime : tree.root.realtime < Width.bound 64
  cpu : tree.root.cpu < Width.bound 64
  count : tree.root.count < Width.bound 64
  recursions : tree.root.recursions < Width.bound 32

variable {tree : CallTree}

/-- Collapsing of a tree that fits comes to a value that fits. -/
theorem Fits.exists_collapsed (fits : tree.Fits) :
    ∃ collapsed, tree.collapseRecursion = .ok collapsed ∧ collapsed.Fits := by
  obtain ⟨⟨remaining, folded⟩, folding⟩ := fits.children.exists_foldRecursion []
  have renumbered := (fits.children.folded folding).renumber (tree.root.level + 1)
  obtain ⟨children, merged⟩ := renumbered.exists_merged
  rw [collapseRecursion]
  split
  · refine ⟨{ tree with children }, bind_eq_ok_iff.2 ⟨_, folding, ?_⟩, ?_⟩
    · exact bind_eq_ok_iff.2 ⟨children, merged, rfl⟩
    · exact { fits with children := renumbered.merged merged }
  · exact ⟨tree, rfl, fits⟩

/-- A tree that passes the check has no call of the root's name. -/
theorem fresh_of_checkRecursion (passed : tree.checkRecursion = .ok ()) :
    tree.root.name ∉ tree.children.preorder.map (·.name) := by
  intro named
  obtain ⟨node, member, namesake⟩ := List.mem_map.1 named
  rw [← Forest.map_snd_located [tree.root.name]] at member
  obtain ⟨place, located, rfl⟩ := List.mem_map.1 member
  have recursive : CallPath.isRecursive place.1 = true := by
    obtain ⟨inner, path⟩ := Forest.path_of_mem_located located
    rw [path, CallPath.isRecursive_concat, namesake]
    simp
  rw [checkRecursion, recursiveName?_eq] at passed
  cases found : (tree.children.located [tree.root.name]).find? fun place =>
      CallPath.isRecursive place.1 with
  | none => exact List.find?_eq_none.1 found place located recursive
  | some place =>
      rw [found] at passed
      cases passed

/-- Of each name the rows of a tree fit that passes the check. -/
theorem Fits.rows (fits : tree.Fits) (passed : tree.checkRecursion = .ok ()) (name : String) :
    FunctionStat.RowsFit (tree.whole.rows.filter (·.name = name)) := by
  rw [rows_whole]
  by_cases isRoot : (FunctionStat.alone tree.root tree.children).name = name
  · have others : tree.children.rows.filter (·.name = name) = [] := by
      rw [List.filter_eq_nil_iff]
      intro row member namesake
      refine fresh_of_checkRecursion passed ?_
      rw [show tree.root.name = name from isRoot, ← of_decide_eq_true namesake,
        ← Forest.map_rows (fun _ _ => rfl : ∀ node children,
          (FunctionStat.alone node children).name = node.name)]
      exact List.mem_map_of_mem member
    rw [List.filter_cons, if_pos (decide_eq_true isRoot), others]
    have time := Nat.lt_of_le_of_lt (Forest.time_le_total tree.children) fits.children.realtime
    constructor <;> simp only [List.map_singleton, List.sum_singleton, FunctionStat.alone]
    case realtime => exact fits.realtime
    case cpu => exact fits.cpu
    case childrenRealtime => exact time
    case count => exact fits.count
    case recursions => exact fits.recursions
  · rw [List.filter_cons, if_neg fun same => isRoot (of_decide_eq_true same)]
    exact fits.children.rows.sublist List.filter_sublist

/-- The sums over the children of every node and over the nodes of every name fit. -/
structure TotalsFit (tree : CallTree) : Prop where
  times : ∀ entry ∈ tree.whole.entries, entry.2.time < Width.bound 64
  totals : ∀ name, FunctionStat.RowsFit (tree.whole.rows.filter (·.name = name))

theorem Fits.totalsFit (fits : tree.Fits) (passed : tree.checkRecursion = .ok ()) :
    tree.TotalsFit where
  times := by
    have whole : tree.whole.entries = (tree.root, tree.children) :: tree.children.entries := by
      simp [CallTree.whole, Forest.entries]
    rw [whole, List.forall_mem_cons]
    exact ⟨Nat.lt_of_le_of_lt (Forest.time_le_total tree.children) fits.children.realtime,
      fun entry member => fits.children.time_lt_of_mem member⟩
  totals := fits.rows passed

/-- Statistics come to a value if the sums of which they consist fit, or are refused. -/
theorem TotalsFit.completes_statistics (fit : tree.TotalsFit) : Stop.Completes tree.statistics := by
  have empty : FunctionStat.Summarizes [] [] := ⟨rfl, by simp⟩
  obtain ⟨totals, added⟩ : ∃ totals, tree.totalsByName = .ok totals :=
    empty.exists_foldlM fit.times fit.totals
  intro reached stopped
  rw [statistics, added] at stopped
  cases checked : tree.checkRecursion with
  | error reason =>
      rw [checked] at stopped
      cases stopped
  | ok =>
      rw [checked] at stopped
      cases stopped

/-- Statistics of a tree that fits come to a value, or are refused. -/
theorem Fits.completes_statistics (fits : tree.Fits) : Stop.Completes tree.statistics := by
  intro reached stopped
  cases checked : tree.checkRecursion with
  | error reason =>
      rw [statistics_of_recursionDetected checked] at stopped
      cases stopped
  | ok => exact (fits.totalsFit checked).completes_statistics reached stopped

/-! ## Building -/

variable {events : List Event}

/-- What the events of a path amount to is part of what all events do. -/
theorem sum_along_le (quantity : Event → Nat) (path : CallPath) :
    ((Call.along events path).map quantity).sum ≤ (events.map quantity).sum := by
  have part : (Call.along events path).Sublist events := by
    conv => rhs; rw [← Call.map_event_ofEvents events]
    exact List.filter_sublist.map _
  exact (part.map quantity).sum_le_sum fun _ _ => Nat.zero_le _

/-- A list whose totals fit has a tree or is refused. -/
theorem completes_build (few : events.length < Width.bound 64)
    (times : (events.map (·.duration)).sum < Width.bound 64)
    (cpu : (events.map (·.cpu.toNat)).sum < Width.bound 64) :
    Stop.Completes (build events) := by
  intro reached stopped
  cases checked : OpenPath.check [] 0 events with
  | error reason =>
      rw [build_eq, checked] at stopped
      cases stopped
  | ok =>
      have outermost (quantity : Event → Nat) :
          ((events.filter fun event => event.level = 0).map quantity).sum ≤
            (events.map quantity).sum :=
        (List.filter_sublist.map quantity).sum_le_sum fun _ _ => Nat.zero_le _
      have fit : TimesFit events := {
        along := fun path => Nat.lt_of_le_of_lt (sum_along_le (·.duration) path) times
        cpuAlong := fun path => Nat.lt_of_le_of_lt (sum_along_le (·.cpu.toNat) path) cpu
        outermost := Nat.lt_of_le_of_lt (outermost _) times
        cpuOutermost := Nat.lt_of_le_of_lt (outermost _) cpu }
      rcases build_of_timesFit checked fit few with ⟨tree, built⟩ | ⟨count, refused⟩
      · rw [built] at stopped
        cases stopped
      · rw [refused] at stopped
        cases stopped

/-- The nodes of a built tree have no more together than the events. -/
theorem total_of_build_le (built : build events = .ok tree) {quantity : Node → Nat}
    (combining : ∀ survivor absorbed node, Node.absorb survivor absorbed = .ok node →
      quantity node ≤ quantity survivor + quantity absorbed) :
    tree.children.total quantity ≤ (events.map fun event => quantity (.ofEvent event)).sum := by
  have total := Forest.total_mergeInto_le (fun survivor absorbed node done =>
    combining survivor absorbed node (Node.absorb_of_absorbSingle done)) (build_eq_ok built).2.1
  rw [Forest.total_nil, Nat.zero_add, Forest.total, Forest.total, Forest.preorder_ofEvents,
    List.map_map] at total
  exact total

/-- A built tree fits if the totals of the events do. -/
theorem fits_of_build (built : build events = .ok tree) (few : events.length ≤ Width.bound 32)
    (times : (events.map (·.duration)).sum < Width.bound 64)
    (cpu : (events.map (·.cpu.toNat)).sum < Width.bound 64) : tree.Fits := by
  have ones : (events.map fun _ => 1).sum = events.length := by simp
  have below : Width.bound 32 < Width.bound 64 := by decide
  have childrenFit : tree.children.Fits := by
    constructor
    case realtime =>
      exact Nat.lt_of_le_of_lt (total_of_build_le built fun _ _ _ done =>
        Nat.le_of_eq (Node.adds_realtime done)) times
    case cpu =>
      exact Nat.lt_of_le_of_lt (total_of_build_le built fun _ _ _ done =>
        Nat.le_of_eq (Node.adds_cpu done)) cpu
    case count =>
      have counts : tree.children.total (·.count) ≤ (events.map fun _ => 1).sum :=
        total_of_build_le built fun _ _ _ done => Nat.le_of_eq (Node.adds_count done)
      omega
    case nodes =>
      have nodes : tree.children.total (fun node => node.recursions + 1) ≤
          (events.map fun _ => 1).sum :=
        total_of_build_le built fun _ _ _ done => by
          rw [Node.adds_recursions done]
          omega
      omega
    case counted => exact (sound_of_build built).counted
  obtain ⟨_, _, realtime, sumCpu, _⟩ := build_eq_ok built
  obtain ⟨_, _, _, _, _, _, _, _, rfl⟩ := build_steps built
  have rootRealtime := Checked.sum_eq_ok_iff.1 realtime
  have rootCpu := Checked.sum_eq_ok_iff.1 sumCpu
  refine ⟨childrenFit, ?_, ?_, show 1 < Width.bound 64 by decide, Width.bound_pos 32⟩
  · rw [rootRealtime.2]
    exact rootRealtime.1
  · rw [rootCpu.2]
    exact rootCpu.1

end CallTree

end CallProfiler
