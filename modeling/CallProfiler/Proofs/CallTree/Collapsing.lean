import CallProfiler.Proofs.CallTree.Building
import CallProfiler.Proofs.CallTree.Folding
import CallProfiler.Proofs.CallTree.Mitigating

/-!
# Collapsed recursion

A collapsed tree is the trie of the reduced call paths of its event list. `conserved_of_collapse`
follows a quantity through folding, renumbering and merging; `collapseRecursion_isReducedTrie`
says what that makes of the totals.
-/

namespace CallProfiler

/-- The trie of the reduced call paths of an event list. A recursive call counts at the place
of its outermost namesake, but its CPU time does not. -/
structure CallTree.IsReducedTrie (tree : CallTree) (events : List Event) : Prop where
  places : tree.children.IsTrie ((Call.ofEvents events).map (·.path.reduced))
  count : ∀ place ∈ tree.children.located [],
    place.2.count =
      ((Call.ofEvents events).filter fun call => call.path.reduced = place.1).length
  removedCalls : ∀ place ∈ tree.children.located [],
    place.2.removedCalls = ((Call.ofEvents events).filter fun call =>
      call.path.reduced = place.1 ∧ call.path.isRecursive).length
  /-- Different call paths count, not calls. -/
  recursions : ∀ place ∈ tree.children.located [],
    place.2.recursions = (((Call.ofEvents events).map (·.path)).eraseDups.filter fun path =>
      path.reduced = place.1 ∧ path.isRecursive).length
  cpu : ∀ place ∈ tree.children.located [],
    place.2.cpu = (((Call.ofEvents events).filter fun call =>
      call.path.reduced = place.1 ∧ ¬ call.path.isRecursive).map (·.event.cpu.toNat)).sum

section Sums

variable {α : Type} (values : List α) (test : α → Prop) [DecidablePred test]

/-- The sum over the values that pass a test, as a sum over all of them. -/
theorem sum_map_filter (amount : α → Nat) :
    ((values.filter test).map amount).sum =
      (values.map fun value => if test value then amount value else 0).sum := by
  rw [List.sum_map_ite]
  simp

/-- The number of values that pass a test, as a sum over all of them. -/
theorem length_filter_eq_sum :
    (values.filter test).length = (values.map fun value => if test value then 1 else 0).sum := by
  rw [← sum_map_filter]
  simp

/-- Of two tests the second may be left to the amounts. -/
theorem sum_map_filter_and (other : α → Prop) [DecidablePred other] (amount : α → Nat) :
    ((values.filter fun value => test value ∧ other value).map amount).sum =
      ((values.filter test).map fun value => if other value then amount value else 0).sum := by
  rw [← sum_map_filter, List.filter_filter]
  simp only [Bool.decide_and, Bool.and_comm]

end Sums

section Keys

variable {α κ : Type} [DecidableEq κ] {keys : List κ}

/-- An amount that belongs to one of several different keys. -/
theorem sum_indicator (distinct : keys.Nodup) {key : κ} (member : key ∈ keys) (amount : Nat) :
    (keys.map fun other => if key = other then amount else 0).sum = amount := by
  induction keys with
  | nil => cases member
  | cons first rest inductionHypothesis =>
      obtain ⟨absent, distinctRest⟩ := List.nodup_cons.1 distinct
      rw [List.map_cons, List.sum_cons]
      rcases List.mem_cons.1 member with rfl | inRest
      · have elsewhere : (rest.map fun other => if key = other then amount else 0).sum = 0 := by
          apply List.sum_eq_zero
          intro value inValues
          obtain ⟨other, inRest, rfl⟩ := List.mem_map.1 inValues
          exact if_neg fun same : key = other => absent (same ▸ inRest)
        rw [if_pos rfl, elsewhere, Nat.add_zero]
      · have different : key ≠ first := fun same => absent (same ▸ inRest)
        rw [if_neg different, inductionHypothesis distinctRest inRest, Nat.zero_add]

/-- Sums may be taken key by key. -/
theorem sum_by_key (distinct : keys.Nodup) (key : α → κ) (amount : α → Nat) {values : List α}
    (covered : ∀ value ∈ values, key value ∈ keys) :
    (keys.map fun other => ((values.filter (key · = other)).map amount).sum).sum =
      (values.map amount).sum := by
  induction values with
  | nil => simp
  | cons value rest inductionHypothesis =>
      have others := inductionHypothesis fun other member =>
        covered other (List.mem_cons_of_mem value member)
      have alone := sum_indicator distinct (covered value List.mem_cons_self) (amount value)
      rw [List.map_cons, List.sum_cons, ← others, ← alone, ← List.sum_map_add]
      apply congrArg List.sum
      apply List.map_congr_left
      intro other _
      by_cases same : key value = other <;> simp [same]

end Keys

namespace Forest

/-- Renumbering changes nothing but levels. -/
theorem located_renumber (above : CallPath) (level : Int) (forest : Forest Node) :
    (forest.renumber level).located above =
      (forest.located above).map fun place =>
        (place.1, { place.2 with level := level + place.1.length - (above.length + 1) }) := by
  induction forest generalizing above level with
  | nil => rfl
  | node label children siblings childrenHypothesis siblingsHypothesis =>
      have deeper : level + (above ++ [label.name]).length - (above.length + 1) = level := by
        rw [List.length_append, List.length_singleton]
        omega
      have shift (place : CallPath × Node) :
          level + 1 + place.1.length - ((above ++ [label.name]).length + 1) =
            level + place.1.length - (above.length + 1) := by
        rw [List.length_append, List.length_singleton]
        omega
      simp only [renumber, located, childrenHypothesis, siblingsHypothesis, List.map_cons,
        List.map_append, deeper, shift]

/-- Where no node is recursive, no path names a function twice. -/
theorem nodup_of_isRecursive_eq_false {path : CallPath} {forest : Forest Node}
    (nowhere : isRecursive path.reverse forest = false) (distinct : path.Nodup) :
    ∀ place ∈ forest.located path, place.1.Nodup := by
  induction forest generalizing path with
  | nil => simp [located]
  | node label children siblings childrenHypothesis siblingsHypothesis =>
      simp only [isRecursive, Bool.or_eq_false_iff] at nowhere
      obtain ⟨⟨fresh, inChildren⟩, inSiblings⟩ := nowhere
      have absent : label.name ∉ path := by
        rw [← List.mem_reverse, ← List.contains_iff_mem, fresh]
        exact Bool.false_ne_true
      have longer : (path ++ [label.name]).Nodup := by
        refine List.nodup_append.2 ⟨distinct, List.nodup_singleton _, ?_⟩
        intro name member other only equal
        rw [equal, List.mem_singleton.1 only] at member
        exact absent member
      rw [show label.name :: path.reverse = (path ++ [label.name]).reverse by simp] at inChildren
      intro place member
      rcases List.mem_cons.1 member with rfl | member
      · exact longer
      · rcases List.mem_append.1 member with inside | beside
        · exact childrenHypothesis inChildren longer place inside
        · exact siblingsHypothesis inSiblings distinct place beside

end Forest

namespace Carried

variable (carried : Carried)

theorem keptAt_eq_sum_nodesAt (target : CallPath) (forest : Forest Node) :
    carried.keptAt target (forest.located []) =
      ((forest.nodesAt target).map carried.kept).sum := by
  rw [keptAt, Forest.nodesAt, List.sum_map_ite, List.map_map]
  simp [Function.comp_def]

/-- A node that shares its path with no other has all that is kept there. -/
theorem keptAt_of_distinct {forest : Forest Node} (distinct : forest.Distinct)
    {place : CallPath × Node} (member : place ∈ forest.located []) :
    carried.keptAt place.1 (forest.located []) = carried.kept place.2 := by
  rw [keptAt_eq_sum_nodesAt, distinct.nodesAt_eq member]
  simp

/-- Where no path names a function twice, every node is a source for itself. -/
theorem sourceAt_of_nodup {places : List (CallPath × Node)}
    (distinct : ∀ place ∈ places, place.1.Nodup) (target : CallPath) :
    carried.sourceAt target places = carried.keptAt target places := by
  apply congrArg List.sum
  apply List.map_congr_left
  intro place member
  rw [CallPath.reduced_of_nodup (distinct place member),
    CallPath.isRecursive_of_nodup (distinct place member)]
  rfl

/-- Only where a node is something is kept. -/
theorem mem_of_keptAt_pos {target : CallPath} {places : List (CallPath × Node)}
    (positive : 0 < carried.keptAt target places) : target ∈ places.map (·.1) := by
  obtain ⟨amount, member, nonzero⟩ := List.sum_pos_iff_exists_pos_nat.1 positive
  obtain ⟨place, inPlaces, rfl⟩ := List.mem_map.1 member
  by_cases home : place.1 = target
  · exact List.mem_map.2 ⟨place, inPlaces, home⟩
  · simp [home] at nonzero

theorem keptAt_nodes_pos {target : CallPath} {places : List (CallPath × Node)} :
    0 < nodes.keptAt target places ↔ target ∈ places.map (·.1) := by
  rw [keptAt, List.sum_pos_iff_exists_pos_nat]
  simp only [List.mem_map, exists_exists_and_eq_and, nodes]
  refine exists_congr fun place => and_congr_right fun _ => ?_
  by_cases home : place.1 = target <;> simp [home]

theorem sourceAt_nodes_pos {target : CallPath} {places : List (CallPath × Node)} :
    0 < nodes.sourceAt target places ↔
      ∃ place ∈ places, place.1.isRecursive = false ∧ place.1.reduced = target := by
  rw [sourceAt, List.sum_pos_iff_exists_pos_nat]
  simp only [List.mem_map, exists_exists_and_eq_and, nodes]
  refine exists_congr fun place => and_congr_right fun _ => ?_
  by_cases home : place.1.reduced = target <;> cases place.1.isRecursive <;> simp [home]

theorem keptAt_renumber (renumbered : ∀ (node : Node) (level : Int),
      carried.kept { node with level } = carried.kept node)
    (target : CallPath) (level : Int) (forest : Forest Node) :
    carried.keptAt target ((forest.renumber level).located []) =
      carried.keptAt target (forest.located []) := by
  rw [Forest.located_renumber, keptAt, List.map_map, keptAt]
  apply congrArg List.sum
  apply List.map_congr_left
  intro place _
  simp [renumbered]

end Carried

namespace CallTree

/-- What a collapsed tree went through, where there was recursion. -/
theorem collapseRecursion_eq_ok {tree collapsed : CallTree}
    (done : tree.collapseRecursion = .ok collapsed) :
    (Forest.isRecursive [] tree.children = false ∧ collapsed = tree) ∨
      ∃ remaining, Forest.foldRecursion [] tree.children = .ok (remaining, []) ∧
        Forest.mergeInto Node.absorb .nil (remaining.renumber (tree.root.level + 1)) =
          .ok collapsed.children ∧ collapsed.root = tree.root := by
  rw [collapseRecursion] at done
  split at done
  · obtain ⟨⟨remaining, folded⟩, folding, done⟩ := bind_eq_ok_iff.1 done
    obtain ⟨children, merged, done⟩ := bind_eq_ok_iff.1 done
    cases done
    have names := @Forest.name_of_mem_folded [] _ _ _ folding
    cases folded with
    | nil => exact .inr ⟨remaining, folding, merged, rfl⟩
    | cons first rest => simpa using names first List.mem_cons_self
  · rename_i nowhere
    cases done
    exact .inl ⟨by simpa using nowhere, rfl⟩

/-! ## Sums that leave their width -/

open Checked (Overflows)

theorem overflows_takeIn (node : Node) (folded : Folded) : Overflows (node.takeIn folded) := by
  refine (Overflows.add _ _ _).bind fun count => ?_
  refine (Overflows.add _ _ _).bind fun removedCalls => ?_
  refine (Overflows.add _ _ _).bind fun deeper => ?_
  exact (Overflows.add _ _ _).bind fun recursions => .ok _

theorem overflows_absorb (survivor absorbed : Node) : Overflows (survivor.absorb absorbed) := by
  refine (Overflows.add _ _ _).bind fun realtime => ?_
  refine (Overflows.add _ _ _).bind fun cpu => ?_
  refine (Overflows.add _ _ _).bind fun count => ?_
  refine (Overflows.add _ _ _).bind fun removedCalls => ?_
  exact (Overflows.add _ _ _).bind fun recursions => .ok _

theorem overflows_foldRecursion (above : List String) (forest : Forest Node) :
    Overflows (Forest.foldRecursion above forest) := by
  induction forest generalizing above with
  | nil => exact .ok _
  | node label children siblings childrenHypothesis siblingsHypothesis =>
      rw [Forest.foldRecursion]
      refine (childrenHypothesis _).bind fun inner => ?_
      refine (Overflows.foldlM overflows_takeIn _ _).bind fun node => ?_
      split
      · refine (Overflows.sum _ _).bind fun inside => ?_
        exact (siblingsHypothesis above).bind fun rest => .ok _
      · exact (siblingsHypothesis above).bind fun rest => .ok _

theorem overflows_mergeInto (merged forest : Forest Node) :
    Overflows (Forest.mergeInto Node.absorb merged forest) := by
  induction forest generalizing merged with
  | nil => exact .ok _
  | node label children siblings childrenHypothesis siblingsHypothesis =>
      rw [Forest.mergeInto]
      split
      · exact (childrenHypothesis _).bind fun inner => siblingsHypothesis _
      · refine (overflows_absorb _ _).bind fun node => ?_
        exact (childrenHypothesis _).bind fun inner => siblingsHypothesis _

/-- Collapsing fails only by a sum that leaves its width. -/
theorem overflows_collapseRecursion (tree : CallTree) : Overflows tree.collapseRecursion := by
  rw [collapseRecursion]
  split
  · refine (overflows_foldRecursion _ _).bind fun folding => ?_
    exact (overflows_mergeInto _ _).bind fun children => .ok _
  · exact .ok _

/-! ## What collapsing conserves -/

section Collapsed

variable {tree collapsed : CallTree}

/-- Collapsing moves a quantity that merging adds up to where paths reduce to. -/
theorem conserved_of_collapse (done : tree.collapseRecursion = .ok collapsed) (carried : Carried)
    (renumbered : ∀ (node : Node) (level : Int),
      carried.kept { node with level } = carried.kept node)
    (adds : Adds Node.absorb carried.kept carried.kept) (target : CallPath) :
    carried.keptAt target (collapsed.children.located []) =
      carried.sourceAt target (tree.children.located []) := by
  rcases collapseRecursion_eq_ok done with ⟨nowhere, rfl⟩ | ⟨remaining, folding, merged, _⟩
  · have distinct := @Forest.nodup_of_isRecursive_eq_false [] _ nowhere List.nodup_nil
    exact (carried.sourceAt_of_nodup distinct target).symm
  · have combined := Forest.combined_of_mergeInto Node.keeps_name merged target
    have folded := @Forest.foldRecursion_conserves carried target [] _ _ _ folding
    rw [carried.keptAt_eq_sum_nodesAt, combined.sum_eq adds,
      ← carried.keptAt_eq_sum_nodesAt, carried.keptAt_renumber renumbered, ← folded]
    simp

theorem root_of_collapse (done : tree.collapseRecursion = .ok collapsed) :
    collapsed.root = tree.root := by
  rcases collapseRecursion_eq_ok done with ⟨_, rfl⟩ | ⟨_, _, _, same⟩
  · rfl
  · exact same

/-- The paths of a collapsed tree are those to which paths without recursion reduce. -/
theorem mem_paths_of_collapse (done : tree.collapseRecursion = .ok collapsed) (target : CallPath) :
    target ∈ (collapsed.children.located []).map (·.1) ↔
      ∃ place ∈ tree.children.located [],
        place.1.isRecursive = false ∧ place.1.reduced = target := by
  rw [← Carried.sourceAt_nodes_pos]
  rcases collapseRecursion_eq_ok done with ⟨nowhere, rfl⟩ | ⟨remaining, folding, merged, _⟩
  · have distinct := @Forest.nodup_of_isRecursive_eq_false [] _ nowhere List.nodup_nil
    rw [Carried.sourceAt_of_nodup _ distinct, Carried.keptAt_nodes_pos]
  · have folded := @Forest.foldRecursion_conserves .nodes target [] _ _ _ folding
    rw [Forest.mem_paths_of_mergeInto Node.keeps_name merged,
      ← Carried.keptAt_nodes_pos, Carried.keptAt_renumber _ fun _ _ => rfl, ← folded]
    simp

theorem distinct_of_collapse (distinct : tree.children.Distinct)
    (done : tree.collapseRecursion = .ok collapsed) : collapsed.children.Distinct := by
  rcases collapseRecursion_eq_ok done with ⟨_, rfl⟩ | ⟨remaining, _, merged, _⟩
  · exact distinct
  · exact Forest.distinct_of_mergeInto Node.keeps_name merged

/-- Levels of a collapsed tree are the depths of its nodes, as those of the full tree are. -/
theorem level_of_collapse (outermost : tree.root.level = -1)
    (levels : ∀ place ∈ tree.children.located [], place.2.level = place.1.length - 1)
    (done : tree.collapseRecursion = .ok collapsed) :
    ∀ place ∈ collapsed.children.located [], place.2.level = place.1.length - 1 := by
  rcases collapseRecursion_eq_ok done with ⟨_, rfl⟩ | ⟨remaining, _, merged, _⟩
  · exact levels
  · intro place member
    have combined := Forest.combined_of_mergeInto Node.keeps_name merged place.1
    rw [(Forest.distinct_of_mergeInto Node.keeps_name merged).nodesAt_eq member] at combined
    obtain ⟨first, rest, nodes, absorbed⟩ := combined.exists_first
    have kept := Node.keeps_level.foldlM absorbed
    have inside : first ∈
        (remaining.renumber (tree.root.level + 1)).nodesAt place.1 := by
      rw [nodes]
      exact List.mem_cons_self
    obtain ⟨other, atPath, rfl⟩ := List.mem_map.1 inside
    obtain ⟨located, path⟩ := List.mem_filter.1 atPath
    rw [Forest.located_renumber] at located
    obtain ⟨before, _, rfl⟩ := List.mem_map.1 located
    rw [kept, ← of_decide_eq_true path, outermost]
    simp

end Collapsed

section Reduced

variable {events : List Event} {tree : CallTree}

/-- What the sources of a place have, summed over the events themselves. -/
theorem sourceAt_of_build (built : build events = .ok tree) (carried : Carried)
    (kept given : Event → Nat)
    (keptSum : ∀ place ∈ tree.children.located [],
      carried.kept place.2 = ((Call.along events place.1).map kept).sum)
    (givenSum : ∀ place ∈ tree.children.located [],
      carried.given place.2 = ((Call.along events place.1).map given).sum) (target : CallPath) :
    carried.sourceAt target (tree.children.located []) =
      ((Call.ofEvents events).map fun call =>
        if call.path.reduced = target then
          if call.path.isRecursive then given call.event else kept call.event
        else 0).sum := by
  have covered : ∀ call ∈ Call.ofEvents events,
      call.path ∈ (tree.children.located []).map (·.1) := fun call member =>
    (mem_paths_of_build built call.path).2 (List.mem_map_of_mem member)
  rw [← sum_by_key (distinct_of_build built).nodup_paths (·.path) _ covered, List.map_map,
    Carried.sourceAt]
  apply congrArg List.sum
  apply List.map_congr_left
  intro place member
  have along : ((Call.ofEvents events).filter fun call => call.path = place.1).map (fun call =>
        if call.path.reduced = target then
          if call.path.isRecursive then given call.event else kept call.event
        else 0) =
      (Call.along events place.1).map fun event =>
        if place.1.reduced = target then
          if place.1.isRecursive then given event else kept event
        else 0 := by
    rw [Call.along, List.map_map]
    apply List.map_congr_left
    intro call ofPath
    rw [of_decide_eq_true (List.mem_filter.1 ofPath).2]
    rfl
  rw [Function.comp_apply, along, keptSum place member, givenSum place member]
  by_cases home : place.1.reduced = target <;> cases place.1.isRecursive <;> simp [home]

/-- The different paths of the calls are those of the nodes. -/
theorem paths_perm_of_build (built : build events = .ok tree) :
    ((tree.children.located []).map (·.1)).Perm ((Call.ofEvents events).map (·.path)).eraseDups := by
  refine (List.perm_ext_iff_of_nodup (distinct_of_build built).nodup_paths
    (FirstOccurrences.nodup_eraseDups _)).2 fun path => ?_
  rw [mem_paths_of_build built, List.mem_eraseDups]

/-- What does not look at elapsed times has the same sources in a retimed tree. -/
theorem sourceAt_of_retimed {full : CallTree} (retimed : Retimed tree full) (carried : Carried)
    (kept : ∀ node, carried.kept node.untimed = carried.kept node)
    (given : ∀ node, carried.given node.untimed = carried.given node) (target : CallPath) :
    carried.sourceAt target (full.children.located []) =
      carried.sourceAt target (tree.children.located []) := by
  have untimed (places : List (CallPath × Node)) :
      carried.sourceAt target (places.map fun place => (place.1, place.2.untimed)) =
        carried.sourceAt target places := by
    rw [Carried.sourceAt, List.map_map, Carried.sourceAt]
    apply congrArg List.sum
    apply List.map_congr_left
    intro place _
    simp only [Function.comp_apply, kept, given]
  rw [← untimed, retimed.places, untimed]

/-- The quantities of a collapsed tree at a path, said about the events. -/
theorem quantities_of_collapse {full collapsed : CallTree} (built : build events = .ok tree)
    (retimed : Retimed tree full) (done : full.collapseRecursion = .ok collapsed)
    (target : CallPath) :
    Carried.count.keptAt target (collapsed.children.located []) =
        ((Call.ofEvents events).filter fun call => call.path.reduced = target).length ∧
      Carried.removedCalls.keptAt target (collapsed.children.located []) =
        ((Call.ofEvents events).filter fun call =>
          call.path.reduced = target ∧ call.path.isRecursive).length ∧
      Carried.recursions.keptAt target (collapsed.children.located []) =
        (((Call.ofEvents events).map (·.path)).eraseDups.filter fun path =>
          path.reduced = target ∧ path.isRecursive).length ∧
      Carried.cpu.keptAt target (collapsed.children.located []) =
        (((Call.ofEvents events).filter fun call =>
          call.path.reduced = target ∧ ¬ call.path.isRecursive).map (·.event.cpu.toNat)).sum := by
  have count (place : CallPath × Node) (member : place ∈ tree.children.located []) :
      place.2.count = ((Call.along events place.1).map fun _ => 1).sum :=
    quantity_of_build built Node.adds_count member
  have removedCalls (place : CallPath × Node) (member : place ∈ tree.children.located []) :
      place.2.removedCalls = ((Call.along events place.1).map fun _ => 0).sum :=
    quantity_of_build built Node.adds_removedCalls member
  have recursions (place : CallPath × Node) (member : place ∈ tree.children.located []) :
      place.2.recursions = 0 := by
    rw [quantity_of_build built Node.adds_recursions member]
    simp [Node.ofEvent]
  have cpu (place : CallPath × Node) (member : place ∈ tree.children.located []) :
      place.2.cpu = ((Call.along events place.1).map (·.cpu.toNat)).sum :=
    quantity_of_build built Node.adds_cpu member
  refine ⟨?_, ?_, ?_, ?_⟩
  · rw [conserved_of_collapse done .count (fun _ _ => rfl) Node.adds_count,
      sourceAt_of_retimed retimed .count (fun _ => rfl) (fun _ => rfl),
      sourceAt_of_build built .count _ _ count count, length_filter_eq_sum]
    simp [ite_self]
  · rw [conserved_of_collapse done .removedCalls (fun _ _ => rfl) Node.adds_removedCalls,
      sourceAt_of_retimed retimed .removedCalls (fun _ => rfl) (fun _ => rfl),
      sourceAt_of_build built .removedCalls _ _ removedCalls count, length_filter_eq_sum]
    simp only [ite_and]
  · rw [conserved_of_collapse done .recursions (fun _ _ => rfl) Node.adds_recursions,
      sourceAt_of_retimed retimed .recursions (fun _ => rfl) (fun _ => rfl),
      ← ((paths_perm_of_build built).filter _).length_eq, length_filter_eq_sum, List.map_map,
      Carried.sourceAt]
    apply congrArg List.sum
    apply List.map_congr_left
    intro place member
    simp [Carried.recursions, recursions place member, ite_and]
  · rw [conserved_of_collapse done .cpu (fun _ _ => rfl) Node.adds_cpu,
      sourceAt_of_retimed retimed .cpu (fun _ => rfl) (fun _ => rfl),
      sourceAt_of_build built .cpu _ (fun _ => 0) cpu (fun _ _ => by simp [Carried.cpu]),
      sum_map_filter]
    simp only [ite_and, ite_not]

/-- Elapsed times do not matter to the trie that collapsing makes. -/
theorem isReducedTrie_of_retimed {full collapsed : CallTree} (built : build events = .ok tree)
    (retimed : Retimed tree full) (done : full.collapseRecursion = .ok collapsed) :
    collapsed.IsReducedTrie events := by
  have distinct := distinct_of_collapse (retimed.distinct (distinct_of_build built)) done
  have quantities := quantities_of_collapse built retimed done
  constructor
  case places =>
    refine ⟨distinct.nodup_paths, ?_, ?_⟩
    · intro path
      constructor
      · intro member
        obtain ⟨place, inFull, _, rfl⟩ := (mem_paths_of_collapse done path).1 member
        have inTree : place.1 ∈ (tree.children.located []).map (·.1) := by
          rw [← retimed.paths]
          exact List.mem_map_of_mem inFull
        obtain ⟨call, inCalls, samePath⟩ := List.mem_map.1 ((mem_paths_of_build built _).1 inTree)
        exact List.mem_map.2 ⟨call, inCalls, congrArg CallPath.reduced samePath⟩
      · intro member
        obtain ⟨call, inCalls, rfl⟩ := List.mem_map.1 member
        apply Carried.count.mem_of_keptAt_pos
        rw [(quantities call.path.reduced).1]
        exact List.length_pos_of_mem (List.mem_filter.2 ⟨inCalls, by simp⟩)
    · have rootLevel : full.root.level = -1 := retimed.level.trans (build_eq_ok built).2.2.2.2
      have levels := @Retimed.forall_places _ _ retimed
        (fun path node => node.level = path.length - 1) (fun _ _ => Iff.rfl)
        fun place member => level_of_build built member
      exact level_of_collapse rootLevel levels done
  case count =>
    intro place member
    rw [← (quantities place.1).1, Carried.keptAt_of_distinct _ distinct member]
    rfl
  case removedCalls =>
    intro place member
    rw [← (quantities place.1).2.1, Carried.keptAt_of_distinct _ distinct member]
    rfl
  case recursions =>
    intro place member
    rw [← (quantities place.1).2.2.1, Carried.keptAt_of_distinct _ distinct member]
    rfl
  case cpu =>
    intro place member
    rw [← (quantities place.1).2.2.2, Carried.keptAt_of_distinct _ distinct member]
    rfl

theorem isReducedTrie_of_collapse {collapsed : CallTree} (built : build events = .ok tree)
    (done : tree.collapseRecursion = .ok collapsed) : collapsed.IsReducedTrie events :=
  isReducedTrie_of_retimed built (.refl tree) done

/-- Collapsing the recursion of a built tree gives the trie of the reduced call paths, unless a
sum leaves its width. -/
theorem collapseRecursion_isReducedTrie (built : build events = .ok tree)
    (fits : tree.collapseRecursion ≠ .error .addOverflow) :
    ∃ collapsed, tree.collapseRecursion = .ok collapsed ∧ collapsed.IsReducedTrie events := by
  obtain ⟨collapsed, done⟩ := (overflows_collapseRecursion tree).exists_ok fits
  exact ⟨collapsed, done, isReducedTrie_of_collapse built done⟩

end Reduced

/-- Two functions that call each other, and a third inside both. -/
def intertwined : List Event :=
  [.plain "walk" 0 0 100, .plain "visit" 1 5 95, .plain "leaf" 2 6 9, .plain "walk" 2 10 90,
    .plain "leaf" 3 11 15, .plain "visit" 3 20 80, .plain "leaf" 4 30 40, .plain "walk" 4 50 70]

theorem collapseRecursion_isReducedTrie_intertwined :
    ∃ tree, build intertwined = .ok tree ∧ tree.collapseRecursion ≠ .error .addOverflow ∧
      ∃ collapsed, tree.collapseRecursion = .ok collapsed ∧
        collapsed.IsReducedTrie intertwined :=
  ⟨_, rfl, nofun, collapseRecursion_isReducedTrie rfl nofun⟩

end CallTree

end CallProfiler
