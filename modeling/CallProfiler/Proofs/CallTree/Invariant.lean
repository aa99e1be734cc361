import CallProfiler.CallTree.Mitigation
import CallProfiler.Proofs.CallTree.Coverage
import CallProfiler.Proofs.CallTree.Refusals
import CallProfiler.Proofs.Walks

/-!
# What every call tree is

Call trees are built from event lists and then mitigated, collapsed and merged, in any order.
`Sound` is what all of these keep, one theorem for each. A tree without namesakes has nothing to
merge, so merging one again changes nothing, and no later merge is ever refused.
-/

namespace CallProfiler

open scoped List

/-- Calls were counted here, and no more of them removed than there were. -/
def Node.Counted (node : Node) : Prop := 1 ≤ node.count ∧ node.removedCalls ≤ node.count

namespace Forest

variable {ε : Type} {combine : Node → Node → Except ε Node} {label : Node}
  {children siblings forest : Forest Node}

/-! ## Forests without namesakes -/

theorem Distinct.inChildren (distinct : (node label children siblings).Distinct) :
    children.Distinct := by
  intro path
  have names := distinct (label.name :: path)
  rw [under_cons_node, if_pos rfl, List.map_append] at names
  exact (List.nodup_append.1 names).1

theorem Distinct.inSiblings (distinct : (node label children siblings).Distinct) :
    siblings.Distinct := by
  intro path
  have names := distinct path
  cases path with
  | nil =>
      rw [under_empty] at names ⊢
      exact (List.nodup_cons.1 names).2
  | cons name path =>
      rw [under_cons_node, List.map_append] at names
      exact (List.nodup_append.1 names).2.1

/-- Of the children of a node no two share a name. -/
theorem Distinct.nodup_of_mem_entries (distinct : forest.Distinct) {entry : Node × Forest Node}
    (member : entry ∈ forest.entries) : (entry.2.tops.map (·.name)).Nodup := by
  induction forest with
  | nil => cases member
  | node label children siblings childrenHypothesis siblingsHypothesis =>
      rcases List.mem_cons.1 member with rfl | member
      · simpa using distinct.inChildren []
      · rcases List.mem_append.1 member with inChildren | inSiblings
        · exact childrenHypothesis distinct.inChildren inChildren
        · exact siblingsHypothesis distinct.inSiblings inSiblings

/-- Where no siblings share a name there is nothing to merge. -/
theorem mergeInto_of_distinct {merged : Forest Node} (distinct : (merged.append forest).Distinct) :
    mergeInto combine merged forest = .ok (merged.append forest) := by
  induction forest generalizing merged with
  | nil => rw [mergeInto, append_nil]
  | node label children siblings childrenHypothesis siblingsHypothesis =>
      have apart := distinct.apart.1
      have fresh : merged.find? (named label.name) = none :=
        find?_eq_none_of fun other member => by simpa [named] using apart other member
      have inner : children.Distinct := fun path => by
        have names := distinct (label.name :: path)
        rw [under_of_apart apart distinct.apart.2] at names
        exact names
      have within := @childrenHypothesis .nil inner
      rw [mergeInto, fresh]
      simp only [within, bind, Except.bind]
      have regrouped : (merged.append (.node label children .nil)).append siblings =
          merged.append (.node label children siblings) := append_assoc _ _ _
      rw [← regrouped] at distinct ⊢
      exact siblingsHypothesis distinct

theorem mem_located_of_mem_tops (above : CallPath) {child : Node} (listed : child ∈ forest.tops) :
    (above ++ [child.name], child) ∈ forest.located above := by
  induction forest with
  | nil => cases listed
  | node label children siblings _ inductionHypothesis =>
      rcases List.mem_cons.1 listed with rfl | inSiblings
      · exact List.mem_cons_self
      · exact List.mem_cons_of_mem _ (List.mem_append_right _ (inductionHypothesis inSiblings))

/-- Nodes whose levels are their depths are one level above their children. -/
theorem level_of_mem_tops {above : CallPath}
    (levels : ∀ place ∈ forest.located above, place.2.level = place.1.length - 1) :
    ∀ entry ∈ forest.entries, ∀ child ∈ entry.2.tops, child.level = entry.1.level + 1 := by
  induction forest generalizing above with
  | nil => simp [entries]
  | node label children siblings childrenHypothesis siblingsHypothesis =>
      simp only [located, List.forall_mem_cons, List.forall_mem_append] at levels
      obtain ⟨own, inChildren, inSiblings⟩ := levels
      rw [entries, List.forall_mem_cons, List.forall_mem_append]
      refine ⟨fun child listed => ?_, childrenHypothesis inChildren, siblingsHypothesis inSiblings⟩
      have below := inChildren _ (mem_located_of_mem_tops _ listed)
      simp only [List.length_append, List.length_singleton] at own below
      show child.level = label.level + 1
      omega

/-- Where every child is one level above its parent, no node lies below the outermost trees. -/
theorem level_le_of_mem_preorder {forest : Forest Node} {least : Int}
    (outermost : ∀ top ∈ forest.tops, least ≤ top.level)
    (levels : ∀ entry ∈ forest.entries, ∀ child ∈ entry.2.tops,
      child.level = entry.1.level + 1) :
    ∀ node ∈ forest.preorder, least ≤ node.level := by
  induction forest with
  | nil => simp [preorder]
  | node label children siblings childrenHypothesis siblingsHypothesis =>
      simp only [tops, List.forall_mem_cons] at outermost
      simp only [entries, List.forall_mem_cons, List.forall_mem_append] at levels
      rw [preorder, List.forall_mem_cons, List.forall_mem_append]
      refine ⟨outermost.1, ?_, siblingsHypothesis outermost.2 levels.2.2⟩
      refine childrenHypothesis (fun child listed => ?_) levels.2.1
      have below := levels.1 child listed
      have own := outermost.1
      omega

/-! ## What is true of all nodes -/

/-- What combining keeps is true of all nodes of a merged forest. -/
theorem forall_mergeInto {good : Node → Prop}
    (keeps : ∀ survivor absorbed node, good survivor → good absorbed →
      combine survivor absorbed = .ok node → good node)
    {merged result : Forest Node} (allMerged : ∀ node ∈ merged.preorder, good node)
    (all : ∀ node ∈ forest.preorder, good node)
    (done : mergeInto combine merged forest = .ok result) :
    ∀ node ∈ result.preorder, good node := by
  induction forest generalizing merged result with
  | nil =>
      cases done
      exact allMerged
  | node label children siblings childrenHypothesis siblingsHypothesis =>
      simp only [preorder, List.forall_mem_cons, List.forall_mem_append] at all
      obtain ⟨own, inChildren, inSiblings⟩ := all
      rcases mergeInto_node done with ⟨inner, _, within, rest⟩ |
        ⟨before, survivor, kept, after, node, inner, rfl, _, combined, within, rest⟩
      · refine siblingsHypothesis ?_ inSiblings rest
        have goodInner := childrenHypothesis (by simp [preorder]) inChildren within
        simpa [preorder, or_imp, forall_and] using ⟨allMerged, own, goodInner⟩
      · simp only [preorder_append, preorder, List.forall_mem_cons,
          List.forall_mem_append] at allMerged
        obtain ⟨goodBefore, goodSurvivor, goodKept, goodAfter⟩ := allMerged
        refine siblingsHypothesis ?_ inSiblings rest
        have goodNode := keeps survivor label node goodSurvivor own combined
        have goodInner := childrenHypothesis goodKept inChildren within
        simpa [preorder, or_imp, forall_and] using ⟨goodBefore, goodNode, goodInner, goodAfter⟩

theorem preorder_adopt (forest : Forest Node) (own : List Folded) :
    (forest.adopt own).preorder = forest.preorder ++ own.flatMap (·.children.preorder) := by
  have located := located_adopt [] forest own
  rw [← map_snd_located [], located, List.map_append, map_snd_located, List.map_flatMap]
  simp only [map_snd_located]

/-- What taking in and letting pass keep is true of all nodes that remain, and of all that left
with another one. -/
theorem forall_foldRecursion {good : Node → Prop}
    (takesIn : ∀ node folded grown, good node → Node.takeIn node folded = .ok grown → good grown)
    (letsPass : ∀ node passing, good node → good (node.letPass passing)) {path : CallPath}
    {remaining : Forest Node} {folded : List Folded} (all : ∀ node ∈ forest.preorder, good node)
    (done : foldRecursion path.reverse forest = .ok (remaining, folded)) :
    (∀ node ∈ remaining.preorder, good node) ∧
      ∀ leaving ∈ folded, ∀ node ∈ leaving.children.preorder, good node := by
  induction forest generalizing path remaining folded with
  | nil =>
      cases done
      simp [preorder]
  | node label children siblings childrenHypothesis siblingsHypothesis =>
      simp only [preorder, List.forall_mem_cons, List.forall_mem_append] at all
      obtain ⟨own, inChildren, inSiblings⟩ := all
      obtain ⟨inner, below, namesakes, passing, node, rest, later, within, beside, namesakesEq,
        passingEq, taken, outcome⟩ := foldRecursion_node done
      obtain ⟨goodInner, goodBelow⟩ := childrenHypothesis inChildren within
      obtain ⟨goodRest, goodLater⟩ := siblingsHypothesis inSiblings beside
      have goodNode : good node :=
        preserved_of_foldlM (fun node folded _ => takesIn node folded)
          (letsPass label passing own) taken
      have goodGrown : ∀ node ∈ (inner.adopt namesakes).preorder, good node := by
        rw [preorder_adopt, List.forall_mem_append]
        refine ⟨goodInner, fun node member => ?_⟩
        obtain ⟨leaving, isNamesake, inside⟩ := List.mem_flatMap.1 member
        rw [namesakesEq] at isNamesake
        exact goodBelow leaving (List.mem_of_mem_filter isNamesake) node inside
      have goodPassing : ∀ leaving ∈ passing, ∀ node ∈ leaving.children.preorder, good node := by
        intro leaving member
        rw [passingEq] at member
        exact goodBelow leaving (List.mem_of_mem_filter member)
      rcases outcome with ⟨_, inside, _, rfl, rfl⟩ | ⟨_, rfl, rfl⟩
      · rw [List.forall_mem_append, List.forall_mem_cons]
        exact ⟨goodRest, goodPassing, goodGrown, goodLater⟩
      · rw [List.forall_mem_append, preorder, List.forall_mem_cons, List.forall_mem_append]
        exact ⟨⟨goodNode, goodGrown, goodRest⟩, goodPassing, goodLater⟩

theorem forall_renumber {good : Node → Prop}
    (leveled : ∀ (node : Node) (level : Int), good node → good { node with level })
    (all : ∀ node ∈ forest.preorder, good node) (level : Int) :
    ∀ node ∈ (forest.renumber level).preorder, good node := by
  intro node member
  rw [← map_snd_located [], located_renumber, List.map_map] at member
  obtain ⟨place, inForest, rfl⟩ := List.mem_map.1 member
  refine leveled place.2 _ (all place.2 ?_)
  rw [← map_snd_located []]
  exact List.mem_map_of_mem inForest

theorem map_tops_renumber {β : Type} {observe : Node → β}
    (leveled : ∀ (node : Node) (level : Int), observe { node with level } = observe node)
    (forest : Forest Node) (level : Int) :
    (forest.renumber level).tops.map observe = forest.tops.map observe := by
  induction forest with
  | nil => rfl
  | node label children siblings _ inductionHypothesis =>
      simp [renumber, tops, leveled, inductionHypothesis]

end Forest

namespace CallTree

/-! ## What the operations on call trees keep -/

/-- What the operations on call trees keep. -/
structure Sound (tree : CallTree) : Prop where
  rootLevel : tree.root.level = -1
  rootCounted : tree.root.Counted
  levels : ∀ place ∈ tree.children.located [], place.2.level = place.1.length - 1
  distinct : tree.children.Distinct
  counted : ∀ node ∈ tree.children.preorder, node.Counted
  realtime : tree.children.realtime = .ok tree.root.realtime
  cpu : tree.children.cpu = .ok tree.root.cpu
  /-- A frame thread makes no calls beside its frames. -/
  frame : tree.root.frame = true → tree.children.tops.length = 1

theorem counted_absorb (survivor absorbed node : Node) (first : survivor.Counted)
    (second : absorbed.Counted) (done : survivor.absorb absorbed = .ok node) : node.Counted := by
  rw [Node.absorb_eq_ok done]
  exact ⟨Nat.le_add_right_of_le first.1, Nat.add_le_add first.2 second.2⟩

theorem counted_takeIn (node : Node) (folded : Folded) (grown : Node) (counted : node.Counted)
    (done : node.takeIn folded = .ok grown) : grown.Counted := by
  rw [Node.takeIn_eq_ok done]
  exact ⟨Nat.le_add_right_of_le counted.1, Nat.add_le_add_right counted.2 _⟩

theorem sound_of_build {events : List Event} {tree : CallTree} (built : build events = .ok tree) :
    tree.Sound where
  rootLevel := (build_eq_ok built).2.2.2.2
  rootCounted := by
    obtain ⟨_, _, _, _, _, _, _, _, rfl⟩ := build_steps built
    exact ⟨Nat.le_refl 1, Nat.zero_le 1⟩
  levels := fun _ member => level_of_build built member
  distinct := distinct_of_build built
  counted := by
    refine Forest.forall_mergeInto (fun survivor absorbed node first second done =>
      counted_absorb survivor absorbed node first second (Node.absorb_of_absorbSingle done))
      (by simp [Forest.preorder]) ?_ (build_eq_ok built).2.1
    rw [Forest.preorder_ofEvents]
    intro node member
    obtain ⟨event, _, rfl⟩ := List.mem_map.1 member
    exact ⟨Nat.le_refl 1, Nat.zero_le 1⟩
  realtime := (build_eq_ok built).2.2.1
  cpu := (build_eq_ok built).2.2.2.1
  frame := (rootFrame_of_build built).2

section Operations

variable {tree next : CallTree}

theorem Sound.mitigated {calibration : Calibration} (sound : tree.Sound)
    (done : tree.mitigated calibration = .ok next) : next.Sound := by
  have retimed := retimed_of_mitigated done
  rcases mitigated_eq_ok done with rfl | ⟨_, realtime, cpu, sumRealtime, sumCpu, root⟩
  · exact sound
  · have levels := @Retimed.forall_places _ _ retimed
      (fun path node => node.level = path.length - 1) (fun _ _ => Iff.rfl) sound.levels
    have counted := @Retimed.forall_places _ _ retimed (fun _ node => node.Counted)
      (fun _ _ => Iff.rfl) fun place member => sound.counted place.2 (by
        rw [← Forest.map_snd_located []]
        exact List.mem_map_of_mem member)
    constructor
    case rootLevel => rw [root]; exact sound.rootLevel
    case rootCounted => rw [root]; exact sound.rootCounted
    case levels => exact levels
    case distinct => exact retimed.distinct sound.distinct
    case counted =>
      intro node member
      rw [← Forest.map_snd_located []] at member
      obtain ⟨place, located, rfl⟩ := List.mem_map.1 member
      exact counted place located
    case realtime => rw [root]; exact sumRealtime
    case cpu => rw [root]; exact sumCpu
    case frame =>
      intro frame
      rw [root] at frame
      rw [← sound.frame frame]
      have children := congrArg (fun forest => forest.tops.length) retimed.children
      simpa using children

/-- Collapsing keeps the totals of the outermost nodes. -/
theorem tops_of_collapse {quantity : Node → Nat} (keeps : Keeps Node.takeIn quantity)
    (leveled : ∀ (node : Node) (level : Int), quantity { node with level } = quantity node)
    (adds : Adds Node.absorb quantity quantity) (done : tree.collapseRecursion = .ok next) :
    (next.children.tops.map quantity).sum = (tree.children.tops.map quantity).sum := by
  rcases collapseRecursion_eq_ok done with ⟨_, rfl⟩ | ⟨remaining, folding, merged, _⟩
  · rfl
  · have sum := Forest.sum_under_mergeInto Node.keeps_name adds merged []
    rw [Forest.under_empty, Forest.under_empty, Forest.under_empty,
      Forest.map_tops_renumber leveled, Forest.tops_foldRecursion keeps folding] at sum
    simpa [Forest.tops] using sum

theorem names_of_collapse (distinct : tree.children.Distinct)
    (done : tree.collapseRecursion = .ok next) :
    next.children.tops.map (·.name) = tree.children.tops.map (·.name) := by
  rcases collapseRecursion_eq_ok done with ⟨_, rfl⟩ | ⟨remaining, folding, merged, _⟩
  · rfl
  · have names := (Forest.grouped_of_mergeInto Node.keeps_name merged []).names
    rw [Forest.under_empty, Forest.under_empty,
      @Forest.map_tops_renumber _ Node.name (fun _ _ => rfl),
      Forest.tops_foldRecursion Node.takeIn_keeps_name folding] at names
    rw [names, FirstOccurrences.eraseDups_of_nodup]
    simpa using distinct []

theorem Sound.collapsed (sound : tree.Sound) (done : tree.collapseRecursion = .ok next) :
    next.Sound := by
  have root := root_of_collapse done
  have realtime := tops_of_collapse Node.takeIn_keeps_realtime (fun _ _ => rfl) Node.adds_realtime
    done
  have cpu := tops_of_collapse Node.takeIn_keeps_cpu (fun _ _ => rfl) Node.adds_cpu done
  have names := names_of_collapse sound.distinct done
  constructor
  case rootLevel => rw [root]; exact sound.rootLevel
  case rootCounted => rw [root]; exact sound.rootCounted
  case levels => exact level_of_collapse sound.rootLevel sound.levels done
  case distinct => exact distinct_of_collapse sound.distinct done
  case counted =>
    rcases collapseRecursion_eq_ok done with ⟨_, rfl⟩ | ⟨remaining, folding, merged, _⟩
    · exact sound.counted
    · have folded := (@Forest.forall_foldRecursion _ _ counted_takeIn (fun _ _ counted => counted) []
        _ _ sound.counted folding).1
      exact Forest.forall_mergeInto counted_absorb (by simp [Forest.preorder])
        (Forest.forall_renumber (fun _ _ counted => counted) folded _) merged
  case realtime =>
    rw [root]
    rw [Forest.realtime, Checked.sum_eq_ok_iff, Checked.total_eq_sum, realtime]
    exact Checked.sum_eq_ok_iff.1 sound.realtime
  case cpu =>
    rw [root]
    rw [Forest.cpu, Checked.sum_eq_ok_iff, Checked.total_eq_sum, cpu]
    exact Checked.sum_eq_ok_iff.1 sound.cpu
  case frame =>
    intro frame
    rw [root] at frame
    have count := congrArg List.length names
    rw [List.length_map, List.length_map, sound.frame frame] at count
    exact count

/-- A sound tree has nothing to merge. -/
theorem Sound.merging (sound : tree.Sound) :
    tree.mergeSiblings = .ok tree ∧ tree.mergeSiblingsStrict = .ok tree := by
  constructor
  · rw [mergeSiblings, @Forest.mergeInto_of_distinct _ Node.absorb _ .nil sound.distinct]
    rfl
  · rw [mergeSiblingsStrict,
      @Forest.mergeInto_of_distinct _ Node.absorbSingle _ .nil sound.distinct]
    rfl

end Operations

/-! ## The root with the others -/

section Whole

variable {tree : CallTree}

theorem Sound.level_of_mem_entries (sound : tree.Sound) :
    ∀ entry ∈ tree.whole.entries, ∀ child ∈ entry.2.tops, child.level = entry.1.level + 1 := by
  rw [whole, Forest.entries, Forest.entries, List.append_nil, List.forall_mem_cons]
  refine ⟨fun child listed => ?_, Forest.level_of_mem_tops sound.levels⟩
  have own := sound.levels _ (Forest.mem_located_of_mem_tops [] listed)
  rw [own, sound.rootLevel]
  simp

/-- Nowhere do two siblings share a name. -/
theorem Sound.nodup_of_mem_entries (sound : tree.Sound) :
    ∀ entry ∈ tree.whole.entries, (entry.2.tops.map (·.name)).Nodup := by
  rw [whole, Forest.entries, Forest.entries, List.append_nil, List.forall_mem_cons]
  exact ⟨by simpa using sound.distinct [],
    fun entry member => sound.distinct.nodup_of_mem_entries member⟩

theorem Sound.counted_of_mem_entries (sound : tree.Sound) :
    ∀ entry ∈ tree.whole.entries, entry.1.Counted := by
  rw [whole, Forest.entries, Forest.entries, List.append_nil, List.forall_mem_cons]
  refine ⟨sound.rootCounted, fun entry member => sound.counted entry.1 ?_⟩
  rw [← Forest.map_fst_entries]
  exact List.mem_map_of_mem member

end Whole

/-! ## Trees that the operations lead to -/

/-- The trees to which the operations lead from the tree of an event list. Copying is a step in an
arena, where the copy represents the same tree (`Arena.Represents.deepCopy`). -/
inductive Derived (events : List Event) : CallTree → Prop where
  | built {tree : CallTree} (done : build events = .ok tree) : Derived events tree
  | mitigated {tree next : CallTree} (derived : Derived events tree) (calibration : Calibration)
      (done : tree.mitigated calibration = .ok next) : Derived events next
  | collapsed {tree next : CallTree} (derived : Derived events tree)
      (done : tree.collapseRecursion = .ok next) : Derived events next
  | merged {tree next : CallTree} (derived : Derived events tree)
      (done : tree.mergeSiblings = .ok next) : Derived events next
  | mergedStrictly {tree next : CallTree} (derived : Derived events tree)
      (done : tree.mergeSiblingsStrict = .ok next) : Derived events next

theorem Derived.sound {events : List Event} {tree : CallTree} (derived : Derived events tree) :
    tree.Sound := by
  induction derived with
  | built done => exact sound_of_build done
  | mitigated _ _ done inductionHypothesis => exact inductionHypothesis.mitigated done
  | collapsed _ done inductionHypothesis => exact inductionHypothesis.collapsed done
  | merged _ done inductionHypothesis =>
      rw [inductionHypothesis.merging.1] at done
      cases done
      exact inductionHypothesis
  | mergedStrictly _ done inductionHypothesis =>
      rw [inductionHypothesis.merging.2] at done
      cases done
      exact inductionHypothesis

end CallTree

end CallProfiler
