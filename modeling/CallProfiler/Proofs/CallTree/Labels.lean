import CallProfiler.Proofs.Analysis
import CallProfiler.Proofs.CallTree.Invariant

/-!
# What nodes are called

The operations on call trees make up no names: a node other than the root is called what some
event is, and so is an entry of the statistics. What a node took in by recursion is counted
within 32 bits.
-/

namespace CallProfiler

/-- A node bears one of these names, and what it took in is counted within 32 bits. -/
def Node.Labelled (names : List String) (node : Node) : Prop :=
  node.name ∈ names ∧ node.recursions < Width.bound 32

/-- An entry bears one of these names, and what its nodes took in is counted within 32 bits. -/
def FunctionStat.Labelled (names : List String) (stat : FunctionStat) : Prop :=
  stat.name ∈ names ∧ stat.recursions < Width.bound 32

section Steps

variable {names : List String}

theorem Node.labelled_absorb (survivor absorbed node : Node) (labelled : survivor.Labelled names)
    (done : survivor.absorb absorbed = .ok node) : node.Labelled names := by
  refine ⟨by rw [Node.absorb_eq_ok done]; exact labelled.1, ?_⟩
  obtain ⟨_, _, done⟩ := bind_eq_ok_iff.1 done
  obtain ⟨_, _, done⟩ := bind_eq_ok_iff.1 done
  obtain ⟨_, _, done⟩ := bind_eq_ok_iff.1 done
  obtain ⟨_, _, done⟩ := bind_eq_ok_iff.1 done
  obtain ⟨recursions, sum, done⟩ := bind_eq_ok_iff.1 done
  cases done
  exact Checked.lt_bound_of_add sum

theorem Node.labelled_takeIn (node : Node) (folded : Folded) (grown : Node)
    (labelled : node.Labelled names) (done : node.takeIn folded = .ok grown) :
    grown.Labelled names := by
  refine ⟨by rw [Node.takeIn_eq_ok done]; exact labelled.1, ?_⟩
  obtain ⟨_, _, done⟩ := bind_eq_ok_iff.1 done
  obtain ⟨_, _, done⟩ := bind_eq_ok_iff.1 done
  obtain ⟨_, _, done⟩ := bind_eq_ok_iff.1 done
  obtain ⟨recursions, sum, done⟩ := bind_eq_ok_iff.1 done
  cases done
  exact Checked.lt_bound_of_add sum

theorem FunctionStat.labelled_add {stat other total : FunctionStat}
    (labelled : stat.Labelled names) (done : stat.add other = .ok total) :
    total.Labelled names := by
  refine ⟨by rw [FunctionStat.add_eq_ok done]; exact labelled.1, ?_⟩
  obtain ⟨_, _, done⟩ := bind_eq_ok_iff.1 done
  obtain ⟨_, _, done⟩ := bind_eq_ok_iff.1 done
  obtain ⟨_, _, done⟩ := bind_eq_ok_iff.1 done
  obtain ⟨_, _, done⟩ := bind_eq_ok_iff.1 done
  obtain ⟨recursions, sum, done⟩ := bind_eq_ok_iff.1 done
  cases done
  exact Checked.lt_bound_of_add sum

theorem FunctionStat.labelled_collect {row : FunctionStat} {stats next : List FunctionStat}
    (labelled : ∀ stat ∈ stats, stat.Labelled names) (fresh : row.Labelled names)
    (done : row.collect stats = .ok next) : ∀ stat ∈ next, stat.Labelled names := by
  rcases FunctionStat.collect_eq_ok done with
    ⟨before, held, after, total, rfl, _, added, rfl⟩ | ⟨_, rfl⟩
  · simp only [List.forall_mem_append, List.forall_mem_cons] at labelled ⊢
    exact ⟨labelled.1, FunctionStat.labelled_add labelled.2.1 added, labelled.2.2⟩
  · simp only [List.forall_mem_append, List.forall_mem_singleton]
    exact ⟨labelled, fresh⟩

end Steps

namespace CallTree

/-- All nodes of a tree are labelled, the root included. -/
def Labelled (names : List String) (tree : CallTree) : Prop :=
  ∀ node ∈ tree.preorder, node.Labelled names

variable {names : List String} {tree next : CallTree}

theorem labelled_iff : tree.Labelled names ↔
    tree.root.Labelled names ∧ ∀ node ∈ tree.children.preorder, node.Labelled names := by
  rw [Labelled, CallTree.preorder, whole, Forest.preorder, Forest.preorder, List.append_nil,
    List.forall_mem_cons]

theorem labelled_mergeSiblings (labelled : tree.Labelled names)
    (done : tree.mergeSiblings = .ok next) : next.Labelled names := by
  obtain ⟨root, children⟩ := labelled_iff.1 labelled
  obtain ⟨merged, within, done⟩ := bind_eq_ok_iff.1 done
  cases done
  exact labelled_iff.2 ⟨root, Forest.forall_mergeInto
    (fun survivor absorbed node first _ => Node.labelled_absorb survivor absorbed node first)
    (by simp [Forest.preorder]) children within⟩

theorem labelled_mergeSiblingsStrict (labelled : tree.Labelled names)
    (done : tree.mergeSiblingsStrict = .ok next) : next.Labelled names := by
  obtain ⟨root, children⟩ := labelled_iff.1 labelled
  obtain ⟨merged, within, done⟩ := bind_eq_ok_iff.1 done
  cases done
  refine labelled_iff.2 ⟨root, Forest.forall_mergeInto
    (fun survivor absorbed node first _ done => ?_) (by simp [Forest.preorder]) children within⟩
  exact Node.labelled_absorb survivor absorbed node first (Node.absorb_of_absorbSingle done)

theorem labelled_collapseRecursion (labelled : tree.Labelled names)
    (done : tree.collapseRecursion = .ok next) : next.Labelled names := by
  rcases collapseRecursion_eq_ok done with ⟨_, rfl⟩ | ⟨remaining, folding, merged, root⟩
  · exact labelled
  · obtain ⟨ofRoot, children⟩ := labelled_iff.1 labelled
    have folded := (@Forest.forall_foldRecursion _ _ Node.labelled_takeIn
      (fun _ _ labelled => labelled) [] _ _ children folding).1
    refine labelled_iff.2 ⟨by rw [root]; exact ofRoot, ?_⟩
    exact Forest.forall_mergeInto
      (fun survivor absorbed node first _ => Node.labelled_absorb survivor absorbed node first)
      (by simp [Forest.preorder]) (Forest.forall_renumber (fun _ _ labelled => labelled) folded _)
      merged

theorem labelled_mitigated {calibration : Calibration} (labelled : tree.Labelled names)
    (done : tree.mitigated calibration = .ok next) : next.Labelled names := by
  obtain ⟨ofRoot, children⟩ := labelled_iff.1 labelled
  rcases mitigated_eq_ok done with rfl | ⟨_, _, _, _, _, root⟩
  · exact labelled
  · refine labelled_iff.2 ⟨by rw [root]; exact ofRoot, ?_⟩
    exact Forest.forall_of_untimed (retimed_of_mitigated done).children (fun _ => Iff.rfl) children

theorem labelled_build {events : List Event} (built : build events = .ok tree) :
    tree.Labelled (Node.rootName :: events.map (·.name)) := by
  refine labelled_iff.2 ⟨?_, ?_⟩
  · obtain ⟨_, _, _, _, _, _, _, _, rfl⟩ := build_steps built
    exact ⟨List.mem_cons_self, Width.bound_pos 32⟩
  · refine Forest.forall_mergeInto (fun survivor absorbed node first _ done =>
      Node.labelled_absorb survivor absorbed node first (Node.absorb_of_absorbSingle done))
      (by simp [Forest.preorder]) ?_ (build_eq_ok built).2.1
    rw [Forest.preorder_ofEvents]
    intro node member
    obtain ⟨event, inEvents, rfl⟩ := List.mem_map.1 member
    exact ⟨List.mem_cons_of_mem _ (List.mem_map_of_mem inEvents), Width.bound_pos 32⟩

/-- Every tree made of events has the names of events, apart from its root. -/
theorem Derived.labelled {events : List Event} (derived : Derived events tree) :
    tree.Labelled (Node.rootName :: events.map (·.name)) := by
  induction derived with
  | built done => exact labelled_build done
  | mitigated _ _ done inductionHypothesis => exact labelled_mitigated inductionHypothesis done
  | collapsed _ done inductionHypothesis =>
      exact labelled_collapseRecursion inductionHypothesis done
  | merged _ done inductionHypothesis => exact labelled_mergeSiblings inductionHypothesis done
  | mergedStrictly _ done inductionHypothesis =>
      exact labelled_mergeSiblingsStrict inductionHypothesis done

theorem labelled_statistics {stats : List FunctionStat} (labelled : tree.Labelled names)
    (done : tree.statistics = .ok stats) : ∀ stat ∈ stats, stat.Labelled names := by
  obtain ⟨_, _, done⟩ := bind_eq_ok_iff.1 done
  obtain ⟨totals, added, done⟩ := bind_eq_ok_iff.1 done
  cases done
  have added : tree.whole.entries.foldlM (fun stats entry => do
      let stat ← FunctionStat.ofNode entry.1 entry.2
      stat.collect stats) [] = .ok totals := Stop.ofFault_eq_ok_iff.1 added
  have all : ∀ stat ∈ totals, stat.Labelled names := by
    refine @preserved_of_foldlM _ _ _ _ _ _ _ (fun held => ∀ stat ∈ held, stat.Labelled names)
      (fun held entry member next sofar step => ?_) (by simp) added
    obtain ⟨row, single, collected⟩ := bind_eq_ok_iff.1 step
    rw [FunctionStat.ofNode_eq_ok single] at collected
    have node : entry.1 ∈ tree.preorder := by
      rw [CallTree.preorder, ← Forest.map_fst_entries]
      exact List.mem_map_of_mem member
    have fresh : (FunctionStat.alone entry.1 entry.2).Labelled names := labelled entry.1 node
    exact FunctionStat.labelled_collect sofar fresh collected
  intro stat member
  exact all stat (List.mem_mergeSort.1 member)

end CallTree

/-- The trees of a profile were made of the events of its thread. -/
theorem derived_of_analyzeThread {id : UInt32} {events : List Event} {calibration : Calibration}
    {mitigate : Bool} {profile : ThreadProfile}
    (done : analyzeThread id events calibration mitigate = .ok profile) :
    CallTree.Derived events profile.full ∧ CallTree.Derived events profile.collapsed := by
  obtain ⟨_, tree, built, mitigating, collapsing, _⟩ := stages_of_analyzeThread done
  have derived : CallTree.Derived events profile.full := by
    cases mitigate with
    | false =>
        cases mitigating
        exact .built built
    | true => exact .mitigated (.built built) calibration mitigating
  exact ⟨derived, .collapsed derived collapsing⟩

end CallProfiler
