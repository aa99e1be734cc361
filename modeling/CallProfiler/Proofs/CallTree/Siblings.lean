import CallProfiler.Proofs.CallTree.Invariant
import CallProfiler.Proofs.CallTree.Totals

/-!
# Merging siblings of any tree

A tree may have namesakes among the siblings of any level, and merging two of them makes
namesakes of their children. `merges_of_sumsFit` says of any tree what becomes of the nodes of
every call path. The two merges differ only where a node that would be absorbed is not a single
record, and for trees that were built from events they do not differ at all.
-/

namespace CallProfiler

variable {ε : Type} {combine : Node → Node → Except ε Node}

/-- What one merge does, another one does that combines no less. -/
theorem Forest.mergeInto_mono {δ : Type} {other : Node → Node → Except δ Node}
    (more : ∀ survivor absorbed node,
      combine survivor absorbed = .ok node → other survivor absorbed = .ok node)
    {merged forest result : Forest Node} (done : mergeInto combine merged forest = .ok result) :
    mergeInto other merged forest = .ok result := by
  induction forest generalizing merged result with
  | nil =>
      cases done
      rfl
  | node label children siblings childrenHypothesis siblingsHypothesis =>
      rw [mergeInto] at done ⊢
      split at done
      · obtain ⟨inner, within, beside⟩ := bind_eq_ok_iff.1 done
        exact bind_eq_ok_iff.2 ⟨inner, childrenHypothesis within, siblingsHypothesis beside⟩
      · obtain ⟨node, combined, done⟩ := bind_eq_ok_iff.1 done
        obtain ⟨inner, within, beside⟩ := bind_eq_ok_iff.1 done
        refine bind_eq_ok_iff.2 ⟨node, more _ _ _ combined, ?_⟩
        exact bind_eq_ok_iff.2 ⟨inner, childrenHypothesis within, siblingsHypothesis beside⟩

/-! ## Nodes that become one -/

namespace Node

/-- No node for no nodes, and for some of them the first with the totals of all. -/
def together : List Node → List Node
  | [] => []
  | first :: rest =>
    [{ first with
      realtime := ((first :: rest).map (·.realtime)).sum
      cpu := ((first :: rest).map (·.cpu)).sum
      count := ((first :: rest).map (·.count)).sum
      removedCalls := ((first :: rest).map (·.removedCalls)).sum
      recursions := ((first :: rest).map (·.recursions)).sum
      mitigated := (first :: rest).all (·.mitigated) }]

theorem together_of_absorb {first last : Node} {rest : List Node}
    (done : rest.foldlM absorb first = .ok last) : [last] = together (first :: rest) := by
  induction rest generalizing first with
  | nil =>
      cases done
      simp [together]
  | cons next rest inductionHypothesis =>
      rw [List.foldlM_cons] at done
      obtain ⟨middle, head, tail⟩ := bind_eq_ok_iff.1 done
      rw [inductionHypothesis tail, absorb_eq_ok head]
      simp [together, Nat.add_assoc, Bool.and_assoc]

end Node

theorem Combined.eq_together {nodes merged : List Node}
    (combined : Combined Node.absorb nodes merged) : merged = Node.together nodes := by
  cases nodes with
  | nil => exact combined
  | cons first rest =>
      obtain ⟨last, done, rfl⟩ := combined
      exact Node.together_of_absorb done

namespace CallTree

/-! ## Merged trees -/

/-- The totals of every call path fit their widths. -/
def SumsFit (tree : CallTree) : Prop := ∀ path, Node.SumsFit (tree.children.nodesAt path)

/-- The children of all nodes that have a path, one node after the other. -/
def childrenAt (tree : CallTree) (path : CallPath) : List Node :=
  ((tree.trunk :: tree.children.branches []).filter (·.path = path)).flatMap (·.children.tops)

/-- A tree is what merging makes of another one. -/
structure Merges (tree next : CallTree) : Prop where
  root : next.root = tree.root
  siblings : ∀ branch ∈ next.trunk :: next.children.branches [],
    (branch.children.tops.map (·.name)).Nodup
  /-- The nodes of a path are held by one, which is the first of them but for its totals. -/
  nodes : ∀ path, next.children.nodesAt path = Node.together (tree.children.nodesAt path)
  /-- Children keep the order in which their names first occur among all children of the nodes
  that became one. -/
  order : ∀ branch ∈ next.trunk :: next.children.branches [],
    branch.children.tops.map (·.name) = ((tree.childrenAt branch.path).map (·.name)).eraseDups
  again : next.mergeSiblings = .ok next

/-- The children of the nodes of a path are the nodes below it. -/
theorem childrenAt_eq_under (tree : CallTree) (path : CallPath) :
    tree.childrenAt path = tree.children.under path := by
  cases path with
  | nil =>
      have nowhere : (tree.children.branches []).filter (·.path = []) = [] := by
        have nodes := Forest.nodesAt_nil tree.children
        rw [Forest.nodesAt_eq_map_branches] at nodes
        exact List.map_eq_nil_iff.1 nodes
      rw [childrenAt, List.filter_cons_of_pos (by simp [trunk]), nowhere, Forest.under_empty,
        List.flatMap_singleton]
      rfl
  | cons name path =>
      rw [childrenAt, List.filter_cons_of_neg (by simp [trunk]), Forest.under_cons_eq_flatMap [],
        List.nil_append]

variable {tree next : CallTree}

theorem mergeSiblings_eq_ok_iff : tree.mergeSiblings = .ok next ↔
    ∃ children, Forest.mergeInto Node.absorb .nil tree.children = .ok children ∧
      { tree with children } = next := by
  rw [mergeSiblings]
  simp only [bind_eq_ok_iff, pure, Except.pure, Except.ok.injEq]

theorem mergeSiblingsStrict_eq_ok_iff : tree.mergeSiblingsStrict = .ok next ↔
    tree.mergeSiblings = .ok next ∧
      ∀ path, ∀ node ∈ (tree.children.nodesAt path).tail, node.isSingle = true := by
  have lenient := fun survivor absorbed node => @Node.absorb_of_absorbSingle survivor absorbed node
  constructor
  · intro done
    obtain ⟨children, merged, same⟩ := bind_eq_ok_iff.1 done
    cases same
    have combinable := (Forest.merges_iff Node.keeps_name.absorbSingle).1 ⟨children, merged⟩
    exact ⟨mergeSiblings_eq_ok_iff.2 ⟨children, Forest.mergeInto_mono lenient merged, rfl⟩,
      fun path => (combinable_absorbSingle_iff.1 (combinable path)).2⟩
  · rintro ⟨done, single⟩
    obtain ⟨children, merged, rfl⟩ := mergeSiblings_eq_ok_iff.1 done
    have combinable := (Forest.merges_iff Node.keeps_name).1 ⟨children, merged⟩
    obtain ⟨strictly, again⟩ := (Forest.merges_iff Node.keeps_name.absorbSingle).2 fun path =>
      combinable_absorbSingle_iff.2 ⟨combinable path, single path⟩
    have same := Forest.mergeInto_mono lenient again
    rw [merged] at same
    cases same
    exact bind_eq_ok_iff.2 ⟨children, again, rfl⟩

theorem merges_of_mergeSiblings (done : tree.mergeSiblings = .ok next) : tree.Merges next := by
  obtain ⟨children, merged, rfl⟩ := mergeSiblings_eq_ok_iff.1 done
  have distinct := Forest.distinct_of_mergeInto Node.keeps_name merged
  have grouped := Forest.grouped_of_mergeInto Node.keeps_name merged
  -- With namesakes gone, the children of a branch are all that is below its path.
  have alone : ∀ branch ∈ trunk ⟨tree.root, children⟩ :: children.branches [],
      branch.children.tops = children.under branch.path := by
    refine List.forall_mem_cons.2 ⟨(Forest.under_empty children).symm, ?_⟩
    intro branch member
    exact (distinct.under_branch member).symm
  constructor
  case root => rfl
  case siblings =>
    intro branch member
    rw [alone branch member]
    exact distinct branch.path
  case nodes =>
    intro path
    exact (Forest.combined_of_mergeInto Node.keeps_name merged path).eq_together
  case order =>
    intro branch member
    rw [alone branch member, childrenAt_eq_under]
    exact (grouped branch.path).names
  case again =>
    exact mergeSiblings_eq_ok_iff.2 ⟨children, Forest.mergeInto_of_distinct distinct, rfl⟩

/-- Where its totals fit any tree can be merged, and strictly so just where all nodes that are
absorbed are single records. -/
theorem merges_of_sumsFit (tree : CallTree) (fit : tree.SumsFit) :
    ∃ next, tree.mergeSiblings = .ok next ∧ tree.Merges next ∧
      ∀ strict, tree.mergeSiblingsStrict = .ok strict ↔
        strict = next ∧ ∀ path, ∀ node ∈ (tree.children.nodesAt path).tail,
          node.isSingle = true := by
  obtain ⟨children, merged⟩ := (Forest.merges_iff Node.keeps_name).2 fun path =>
    Node.combinable_of_sumsFit (fit path)
  have done := mergeSiblings_eq_ok_iff.2 ⟨children, merged, rfl⟩
  refine ⟨_, done, merges_of_mergeSiblings done, fun strict => ?_⟩
  rw [mergeSiblingsStrict_eq_ok_iff, done, Except.ok.injEq, eq_comm]

/-- Some calls of one name, of which the last ones came from collapsed recursion. -/
def tally (name : String) (level : Int) (count removedCalls : Nat) : Node :=
  { Node.root with
    name, level, count, removedCalls
    realtime := 10 * count
    recursions := removedCalls }

/-- A tree with namesakes on every level, those below `draw` under different nodes. -/
def scattered : CallTree where
  root := { Node.root with realtime := 80 }
  children :=
    .node (tally "draw" 0 2 1) (.node (tally "path" 1 1 0) .nil .nil)
      (.node (tally "load" 0 1 0) .nil
        (.node (tally "draw" 0 3 0)
          (.node (tally "text" 1 1 0) .nil
            (.node (tally "path" 1 1 0) (.node (tally "clip" 2 1 0) .nil .nil) .nil))
          (.node (tally "load" 0 2 1) .nil .nil)))

theorem merges_of_sumsFit_scattered :
    scattered.SumsFit ∧ ∃ next, scattered.mergeSiblings = .ok next ∧ scattered.Merges next ∧
      next.children.preorder.map (fun node => (node.name, node.count, node.removedCalls)) =
        [("draw", 5, 1), ("path", 2, 0), ("clip", 1, 0), ("text", 1, 0), ("load", 3, 1)] ∧
      scattered.mergeSiblingsStrict ≠ .ok next := by
  have fit : scattered.SumsFit := by apply Forest.sumsFit_of_total <;> decide
  obtain ⟨next, done, merges, strict⟩ := merges_of_sumsFit scattered fit
  refine ⟨fit, next, done, merges, ?_, ?_⟩
  · cases done
    decide
  · intro absorbed
    have single := ((strict next).1 absorbed).2 ["draw"]
    revert single
    decide

/-! ## Trees of event lists -/

/-- No list of events is refused for what its strict merge would absorb, and a later merge finds
nothing to absorb. -/
theorem strict_of_derived (events : List Event) :
    (∀ name, build events ≠ refuse (.mergeInvariant name)) ∧
      ∀ tree, Derived events tree → tree.mergeSiblingsStrict = .ok tree := by
  constructor
  · intro name refused
    rcases refused_of_build refused with checked | ⟨_, count, beside⟩
    · rcases OpenPath.refused_of_check checked with ⟨_, _, _, level⟩ | ⟨_, _, clock⟩
      · cases level
      · cases clock
    · cases beside
  · intro tree derived
    exact derived.sound.merging.2

/-- A tree that has been collapsed holds nodes that a merge could not absorb. -/
theorem strict_of_derived_intertwined :
    ∃ tree, Derived intertwined tree ∧ (∃ node ∈ tree.children.preorder, node.isSingle = false) ∧
      tree.mergeSiblingsStrict = .ok tree :=
  have derived := Derived.merged (.collapsed (.mitigated
    (@Derived.built intertwined _ rfl) ⟨100, 200, 300⟩ rfl) rfl) rfl
  ⟨_, derived, by decide, (strict_of_derived intertwined).2 _ derived⟩

end CallTree

end CallProfiler
