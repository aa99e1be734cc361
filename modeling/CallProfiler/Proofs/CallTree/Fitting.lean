import CallProfiler.Proofs.CallTree.Building
import CallProfiler.Proofs.CallTree.Refusals

/-!
# Totals that fit

The sums of a call tree are taken within a machine width, so a merge may stop at a sum that
leaves it. Whether it does depends on the call paths alone: `merges_iff` says that merging comes
to its end where the nodes of each path combine, one after the other. They do where the totals
of the path fit. Hence `build_of_timesFit`: where the times of every call path fit, an accepted
list has a tree or makes calls beside its frames.
-/

namespace CallProfiler

variable {ε : Type} {combine : Node → Node → Except ε Node}

/-! ## Combining the nodes of a path -/

/-- The nodes of one path become none or one. -/
def Combinable (combine : Node → Node → Except ε Node) (nodes : List Node) : Prop :=
  ∃ merged, Combined combine nodes merged

/-- Where all nodes combine, the earlier ones do. -/
theorem Combinable.of_append {earlier later : List Node}
    (combinable : Combinable combine (earlier ++ later)) : Combinable combine earlier := by
  cases earlier with
  | nil => exact ⟨[], rfl⟩
  | cons first rest =>
      rw [List.cons_append] at combinable
      obtain ⟨_, last, done, _⟩ := combinable
      rw [List.foldlM_append] at done
      obtain ⟨middle, head, _⟩ := bind_eq_ok_iff.1 done
      exact ⟨[middle], middle, head, rfl⟩

/-- Where all nodes combine, the later ones do with what became of the earlier. -/
theorem Combined.rest {earlier later middle : List Node} (first : Combined combine earlier middle)
    (whole : Combinable combine (earlier ++ later)) : Combinable combine (middle ++ later) := by
  cases earlier with
  | nil =>
      cases first
      exact whole
  | cons head tail =>
      rw [List.cons_append] at whole
      obtain ⟨node, done, rfl⟩ := first
      obtain ⟨_, last, all, _⟩ := whole
      rw [List.foldlM_append, done] at all
      exact ⟨[last], last, all, rfl⟩

namespace Forest

/-- The amount of a quantity that the nodes of a call path hold together. -/
def amount (quantity : Node → Nat) (forest : Forest Node) (path : CallPath) : Nat :=
  ((forest.nodesAt path).map quantity).sum

theorem mem_preorder_of_mem_nodesAt {forest : Forest Node} {path : CallPath} {node : Node}
    (member : node ∈ forest.nodesAt path) : node ∈ forest.preorder := by
  obtain ⟨place, atPath, rfl⟩ := List.mem_map.1 member
  rw [← map_snd_located []]
  exact List.mem_map_of_mem (List.mem_filter.1 atPath).1

/-- A tree whose siblings have other names is the only one of its name. -/
theorem filter_named_of_apart {before after kept : Forest Node} {survivor : Node}
    (beforeApart : ∀ other ∈ before.tops, other.name ≠ survivor.name)
    (afterApart : ∀ other ∈ after.tops, other.name ≠ survivor.name) :
    ((before.append (.node survivor kept after)).under []).filter (named survivor.name) =
      [survivor] := by
  have noneOf {nodes : List Node} (apart : ∀ other ∈ nodes, other.name ≠ survivor.name) :
      nodes.filter (named survivor.name) = [] := by
    apply List.filter_eq_nil_iff.2
    intro other member
    simpa [named] using apart other member
  rw [under_empty, tops_append, tops, List.filter_append, noneOf beforeApart, List.nil_append,
    List.filter_cons_of_pos (by simp [named]), noneOf afterApart]

/-- A tree merges into others if its node combines with its namesake, and its children with those
of the namesake. -/
theorem exists_mergeInto_node {merged : Forest Node} {label : Node} {children : Forest Node}
    (fresh : (∀ other ∈ merged.tops, other.name ≠ label.name) →
      ∃ inner, mergeInto combine .nil children = .ok inner)
    (met : ∀ (before : Forest Node) (survivor : Node) (kept after : Forest Node),
      merged = before.append (.node survivor kept after) → survivor.name = label.name →
        (∃ node, combine survivor label = .ok node) ∧
          ∃ inner, mergeInto combine kept children = .ok inner) :
    ∃ next, mergeInto combine merged (.node label children .nil) = .ok next := by
  rw [mergeInto]
  cases found : merged.find? (named label.name) with
  | none =>
      obtain ⟨inner, within⟩ := fresh fun other member => by
        simpa [named] using find?_eq_none found other member
      exact exists_ok_bind within ⟨_, rfl⟩
  | some pair =>
      obtain ⟨survivor, kept⟩ := pair
      obtain ⟨before, after, parted, holds, _⟩ := find?_eq_some found
      obtain ⟨⟨node, combined⟩, inner, within⟩ :=
        met before survivor kept after parted (by simpa [named] using holds)
      exact exists_ok_bind combined (exists_ok_bind within ⟨_, rfl⟩)

/-- Merging comes to its end if the nodes of every path combine. -/
theorem exists_mergeInto (keepsName : Keeps combine Node.name) {merged forest : Forest Node}
    (distinct : merged.Distinct)
    (combinable : ∀ path name,
      Combinable combine ((merged.under path ++ forest.under path).filter (named name))) :
    ∃ result, mergeInto combine merged forest = .ok result := by
  induction forest generalizing merged with
  | nil => exact ⟨merged, rfl⟩
  | node label children siblings childrenHypothesis siblingsHypothesis =>
      have below (path : CallPath) : (node label children siblings).under (label.name :: path) =
          children.under path ++ siblings.under (label.name :: path) := by
        rw [under_cons_node, if_pos rfl]
      obtain ⟨next, first⟩ : ∃ next,
          mergeInto combine merged (.node label children .nil) = .ok next := by
        apply exists_mergeInto_node
        · intro fresh
          apply childrenHypothesis fun path => by simp
          intro path name
          have whole := combinable (label.name :: path) name
          rw [under_cons_eq_nil fresh, below, List.nil_append, List.filter_append] at whole
          rw [under_nil, List.nil_append]
          exact whole.of_append
        · rintro before survivor kept after rfl namesakes
          obtain ⟨beforeApart, afterApart⟩ := distinct.apart
          have insideOf := @under_of_apart before after kept survivor beforeApart afterApart
          constructor
          · -- The survivor is the only merged node of its name, so it meets the label first.
            have whole := combinable [] survivor.name
            rw [List.filter_append, filter_named_of_apart beforeApart afterApart, under_empty,
              tops, List.filter_cons_of_pos (by simp [named, namesakes]),
              List.singleton_append] at whole
            obtain ⟨_, last, done, _⟩ := whole
            rw [List.foldlM_cons] at done
            obtain ⟨node, combined, _⟩ := bind_eq_ok_iff.1 done
            exact ⟨node, combined⟩
          · apply childrenHypothesis fun path => by
              simpa [insideOf] using distinct (survivor.name :: path)
            intro path name
            have whole := combinable (survivor.name :: path) name
            rw [insideOf, namesakes, below, ← List.append_assoc, List.filter_append] at whole
            exact whole.of_append
      rw [mergeInto_node_eq]
      apply exists_ok_bind first
      have grouped := grouped_mergeInto keepsName distinct first
      apply siblingsHypothesis fun path => (grouped path).nodup_names
      intro path name
      have parted : (node label children siblings).under path =
          (node label children .nil).under path ++ siblings.under path :=
        under_append path (.node label children .nil) siblings
      have whole := combinable path name
      rw [parted, ← List.append_assoc, List.filter_append] at whole
      rw [List.filter_append]
      exact ((grouped path).combined name).rest whole

/-- Merging comes to its end just where the nodes of every path combine. -/
theorem merges_iff (keepsName : Keeps combine Node.name) {forest : Forest Node} :
    (∃ result, mergeInto combine .nil forest = .ok result) ↔
      ∀ path, Combinable combine (forest.nodesAt path) := by
  constructor
  · rintro ⟨result, done⟩ path
    exact ⟨_, combined_of_mergeInto keepsName done path⟩
  · intro combinable
    apply exists_mergeInto keepsName fun path => by simp
    intro path name
    rw [under_nil, List.nil_append, ← nodesAt_concat]
    exact combinable (path ++ [name])

end Forest

/-! ## Adding up nodes -/

namespace Node

/-- A sibling is absorbed if every total of the two fits. -/
theorem exists_absorb {survivor absorbed : Node}
    (realtime : survivor.realtime + absorbed.realtime < Width.bound 64)
    (cpu : survivor.cpu + absorbed.cpu < Width.bound 64)
    (count : survivor.count + absorbed.count < Width.bound 64)
    (removedCalls : survivor.removedCalls + absorbed.removedCalls < Width.bound 64)
    (recursions : survivor.recursions + absorbed.recursions < Width.bound 32) :
    ∃ node, survivor.absorb absorbed = .ok node := by
  simp only [absorb, Checked.add, realtime, cpu, count, removedCalls, recursions, if_true]
  exact ⟨_, rfl⟩

/-- The totals of some nodes fit their widths. -/
structure SumsFit (nodes : List Node) : Prop where
  realtime : (nodes.map (·.realtime)).sum < Width.bound 64
  cpu : (nodes.map (·.cpu)).sum < Width.bound 64
  count : (nodes.map (·.count)).sum < Width.bound 64
  removedCalls : (nodes.map (·.removedCalls)).sum < Width.bound 64
  recursions : (nodes.map (·.recursions)).sum < Width.bound 32

theorem exists_absorbed {first : Node} {rest : List Node} (fit : SumsFit (first :: rest)) :
    ∃ last, rest.foldlM absorb first = .ok last := by
  induction rest generalizing first with
  | nil => exact ⟨first, rfl⟩
  | cons next rest inductionHypothesis =>
      obtain ⟨realtime, cpu, count, removedCalls, recursions⟩ := fit
      simp only [List.map_cons, List.sum_cons, ← Nat.add_assoc] at realtime cpu count
      simp only [List.map_cons, List.sum_cons, ← Nat.add_assoc] at removedCalls recursions
      obtain ⟨middle, head⟩ := @exists_absorb first next (by omega) (by omega) (by omega)
        (by omega) (by omega)
      rw [← adds_realtime head] at realtime
      rw [← adds_cpu head] at cpu
      rw [← adds_count head] at count
      rw [← adds_removedCalls head] at removedCalls
      rw [← adds_recursions head] at recursions
      obtain ⟨last, tail⟩ := @inductionHypothesis middle
        ⟨realtime, cpu, count, removedCalls, recursions⟩
      exact ⟨last, by rw [List.foldlM_cons]; exact bind_eq_ok_iff.2 ⟨middle, head, tail⟩⟩

theorem combinable_of_sumsFit {nodes : List Node} (fit : SumsFit nodes) :
    Combinable absorb nodes := by
  cases nodes with
  | nil => exact ⟨[], rfl⟩
  | cons first rest =>
      obtain ⟨last, done⟩ := exists_absorbed fit
      exact ⟨[last], last, done, rfl⟩

theorem absorbSingle_eq_ok_iff {survivor absorbed node : Node} :
    survivor.absorbSingle absorbed = .ok node ↔
      absorbed.isSingle = true ∧ survivor.absorb absorbed = .ok node := by
  rw [absorbSingle]
  split
  · rename_i single
    rw [Stop.ofFault_eq_ok_iff, and_iff_right single]
  · rename_i several
    constructor
    · rintro ⟨⟩
    · rintro ⟨single, _⟩
      exact absurd single several

/-- The strict merge combines what the lenient one does, if all that it absorbs is single. -/
theorem foldlM_absorbSingle_iff {first last : Node} {rest : List Node} :
    rest.foldlM absorbSingle first = .ok last ↔
      rest.foldlM absorb first = .ok last ∧ ∀ node ∈ rest, node.isSingle = true := by
  induction rest generalizing first with
  | nil => simp [pure, Except.pure]
  | cons next rest inductionHypothesis =>
      simp only [List.foldlM_cons, bind_eq_ok_iff, absorbSingle_eq_ok_iff, inductionHypothesis,
        List.forall_mem_cons]
      constructor
      · rintro ⟨middle, ⟨single, head⟩, tail, others⟩
        exact ⟨⟨middle, head, tail⟩, single, others⟩
      · rintro ⟨⟨middle, head, tail⟩, single, others⟩
        exact ⟨middle, ⟨single, head⟩, tail, others⟩

end Node

theorem combinable_absorbSingle_iff {nodes : List Node} :
    Combinable Node.absorbSingle nodes ↔
      Combinable Node.absorb nodes ∧ ∀ node ∈ nodes.tail, node.isSingle = true := by
  cases nodes with
  | nil =>
      constructor
      · rintro _
        exact ⟨⟨[], rfl⟩, by simp⟩
      · rintro _
        exact ⟨[], rfl⟩
  | cons first rest =>
      constructor
      · rintro ⟨_, last, done, _⟩
        obtain ⟨absorbed, single⟩ := Node.foldlM_absorbSingle_iff.1 done
        exact ⟨⟨[last], last, absorbed, rfl⟩, single⟩
      · rintro ⟨⟨_, last, absorbed, _⟩, single⟩
        exact ⟨[last], last, Node.foldlM_absorbSingle_iff.2 ⟨absorbed, single⟩, rfl⟩

namespace CallTree

variable {events : List Event}

/-- The times that a call tree sums up fit their width: those of every call path, and those of
the outermost calls. -/
structure TimesFit (events : List Event) : Prop where
  along : ∀ path, ((Call.along events path).map (·.duration)).sum < Width.bound 64
  cpuAlong : ∀ path, ((Call.along events path).map (·.cpu.toNat)).sum < Width.bound 64
  outermost : ((events.filter fun event => event.level = 0).map (·.duration)).sum < Width.bound 64
  cpuOutermost :
    ((events.filter fun event => event.level = 0).map (·.cpu.toNat)).sum < Width.bound 64

/-- What the single events of a path hold together. -/
theorem amount_ofEvents (accepted : OpenPath.check [] 0 events = .ok ()) (quantity : Node → Nat)
    (path : CallPath) :
    (Forest.ofEvents events).amount quantity path =
      ((Call.along events path).map fun event => quantity (.ofEvent event)).sum := by
  rw [Forest.amount, Forest.nodesAt, Forest.located_ofEvents accepted, Call.along,
    List.filter_map, List.map_map, List.map_map, List.map_map]
  rfl

theorem length_along_le (events : List Event) (path : CallPath) :
    (Call.along events path).length ≤ events.length := by
  rw [Call.along, List.length_map]
  refine Nat.le_trans (List.length_filter_le _ _) (Nat.le_of_eq ?_)
  rw [← List.length_map, Call.map_event_ofEvents]

/-- Single events hold no more together than the times and the length of their list allow. -/
theorem sumsFit_ofEvents (accepted : OpenPath.check [] 0 events = .ok ()) (fit : TimesFit events)
    (few : events.length < Width.bound 64) (path : CallPath) :
    Node.SumsFit ((Forest.ofEvents events).nodesAt path) := by
  have held (quantity : Node → Nat) := Nat.le_of_eq (amount_ofEvents accepted quantity path)
  constructor
  case realtime => exact Nat.lt_of_le_of_lt (held _) (fit.along path)
  case cpu => exact Nat.lt_of_le_of_lt (held _) (fit.cpuAlong path)
  case count =>
    have calls := held (·.count)
    simp only [Node.ofEvent, List.map_const', List.sum_replicate_nat, Nat.mul_one] at calls
    exact Nat.lt_of_le_of_lt (Nat.le_trans calls (length_along_le events path)) few
  case removedCalls =>
    have removed := held (·.removedCalls)
    simp only [Node.ofEvent, List.map_const', List.sum_replicate_nat, Nat.mul_zero] at removed
    exact Nat.lt_of_le_of_lt removed (Width.bound_pos 64)
  case recursions =>
    have folded := held (·.recursions)
    simp only [Node.ofEvent, List.map_const', List.sum_replicate_nat, Nat.mul_zero] at folded
    exact Nat.lt_of_le_of_lt folded (Width.bound_pos 32)

theorem isSingle_ofEvents {path : CallPath} {node : Node}
    (member : node ∈ (Forest.ofEvents events).nodesAt path) : node.isSingle = true := by
  have inForest := Forest.mem_preorder_of_mem_nodesAt member
  rw [Forest.preorder_ofEvents] at inForest
  obtain ⟨event, _, rfl⟩ := List.mem_map.1 inForest
  rfl

/-- The events of a list whose times fit can be merged. -/
theorem exists_merged (accepted : OpenPath.check [] 0 events = .ok ()) (fit : TimesFit events)
    (few : events.length < Width.bound 64) :
    ∃ children, Forest.mergeInto Node.absorbSingle .nil (.ofEvents events) = .ok children := by
  apply (Forest.merges_iff Node.keeps_name.absorbSingle).2
  intro path
  apply combinable_absorbSingle_iff.2
  constructor
  · exact Node.combinable_of_sumsFit (sumsFit_ofEvents accepted fit few path)
  · exact fun node member => isSingle_ofEvents (List.mem_of_mem_tail member)

/-- Outermost trees whose times fit give the root its totals. -/
theorem exists_withRootTotals {tree : CallTree}
    (realtime : (tree.children.tops.map (·.realtime)).sum < Width.bound 64)
    (cpu : (tree.children.tops.map (·.cpu)).sum < Width.bound 64) :
    ∃ totalled, tree.withRootTotals = .ok totalled := by
  have sumRealtime : tree.children.realtime = .ok (tree.children.tops.map (·.realtime)).sum :=
    Checked.sum_eq_ok_iff.2 ⟨realtime, rfl⟩
  have sumCpu : tree.children.cpu = .ok (tree.children.tops.map (·.cpu)).sum :=
    Checked.sum_eq_ok_iff.2 ⟨cpu, rfl⟩
  rw [withRootTotals, sumRealtime, sumCpu]
  exact ⟨_, rfl⟩

/-- An accepted list whose times fit has a call tree, unless it makes calls beside its frames. -/
theorem build_of_timesFit (accepted : OpenPath.check [] 0 events = .ok ()) (fit : TimesFit events)
    (few : events.length < Width.bound 64) :
    (∃ tree, build events = .ok tree) ∨
      ∃ count, build events = .error (.refused (.multipleFrameEntryPoints count)) := by
  obtain ⟨children, merged⟩ := exists_merged accepted fit few
  obtain ⟨totalled, totals⟩ := @exists_withRootTotals ⟨.root, children⟩
    (by rw [sum_tops_of_merged accepted merged Node.adds_realtime]; exact fit.outermost)
    (by rw [sum_tops_of_merged accepted merged Node.adds_cpu]; exact fit.cpuOutermost)
  cases outcome : build events with
  | ok tree => exact .inl ⟨tree, rfl⟩
  | error stopped =>
      right
      cases stopped with
      | fault reached =>
          -- Every part of the build that could stop at a fault came to a value.
          exfalso
          have strict : mergeSiblingsStrict ⟨.root, .ofEvents events⟩ = .ok ⟨.root, children⟩ := by
            rw [mergeSiblingsStrict, merged]
            rfl
          simp only [build_eq, accepted, strict, totals, Except.mapError, bind, Except.bind,
            liftM, monadLift, MonadLift.monadLift, Stop.ofFault] at outcome
          split at outcome <;> cases outcome
      | refused reason =>
          rcases refused_of_build outcome with failed | ⟨_, count, rfl⟩
          · rw [accepted] at failed
            cases failed
          · exact ⟨count, rfl⟩

end CallTree

end CallProfiler
