import CallProfiler.Proofs.CallTree.Merging
import CallProfiler.Proofs.CallTree.Nesting

/-!
# The tree of an event list

A built tree is the trie of the call paths of its events: `build_isCallTrie` gives its nodes,
their places, their totals and the order of siblings, all said about the event list alone.
-/

namespace CallProfiler

/-- An event of the thread clock that is no frame and whose CPU time was not measured. -/
def Event.plain (name : String) (level : Int32) (start stop : UInt64) : Event :=
  ⟨name, level, false, false, start, stop, 0⟩

/-- The events of an event list that have a call path, in its order. -/
def Call.along (events : List Event) (path : CallPath) : List Event :=
  ((Call.ofEvents events).filter fun call => call.path = path).map (·.event)

/-- The trie of the call paths of an event list, with the totals of the events. -/
structure CallTree.IsCallTrie (tree : CallTree) (events : List Event) : Prop where
  places : tree.children.IsTrie ((Call.ofEvents events).map (·.path))
  /-- The children of a node, or of the root, are in the order of their first calls. -/
  siblings : ∀ path : CallPath,
    (((tree.children.located []).map (·.1)).filter fun other => other.dropLast = path) =
      (((Call.ofEvents events).map (·.path)).filter fun other => other.dropLast = path).eraseDups
  count : ∀ place ∈ tree.children.located [],
    place.2.count = (Call.along events place.1).length
  realtime : ∀ place ∈ tree.children.located [],
    place.2.realtime = ((Call.along events place.1).map (·.duration)).sum
  cpu : ∀ place ∈ tree.children.located [],
    place.2.cpu = ((Call.along events place.1).map (·.cpu.toNat)).sum
  rootLevel : tree.root.level = -1
  rootRealtime : tree.root.realtime =
    ((events.filter fun event => event.level = 0).map (·.duration)).sum
  rootCpu : tree.root.cpu =
    ((events.filter fun event => event.level = 0).map (·.cpu.toNat)).sum

namespace CallTree

/-- What an accepted list went through before its root was marked. -/
theorem build_marks {events : List Event} {tree : CallTree} (built : build events = .ok tree) :
    OpenPath.check [] 0 events = .ok () ∧
      ∃ children realtime cpu,
        Forest.mergeInto Node.absorbSingle .nil (.ofEvents events) = .ok children ∧
        children.realtime = .ok realtime ∧ children.cpu = .ok cpu ∧
        markFrameThread ⟨{ Node.root with realtime, cpu }, children⟩ = .ok tree := by
  rw [build_eq] at built
  obtain ⟨_, accepted, built⟩ := bind_eq_ok_iff.1 built
  obtain ⟨merged, mergedOk, built⟩ := bind_eq_ok_iff.1 built
  obtain ⟨children, within, mergedEq⟩ := bind_eq_ok_iff.1 mergedOk
  cases mergedEq
  obtain ⟨totalled, totalledOk, marked⟩ := bind_eq_ok_iff.1 built
  obtain ⟨realtime, sumRealtime, rest⟩ := bind_eq_ok_iff.1 (Stop.ofFault_eq_ok_iff.1 totalledOk)
  obtain ⟨cpu, sumCpu, totalledEq⟩ := bind_eq_ok_iff.1 rest
  cases totalledEq
  exact ⟨mapError_eq_ok_iff.1 accepted, children, realtime, cpu, within, sumRealtime, sumCpu,
    mapError_eq_ok_iff.1 marked⟩

/-- What an accepted list went through. -/
theorem build_steps {events : List Event} {tree : CallTree} (built : build events = .ok tree) :
    OpenPath.check [] 0 events = .ok () ∧
      ∃ children realtime cpu frame,
        Forest.mergeInto Node.absorbSingle .nil (.ofEvents events) = .ok children ∧
        children.realtime = .ok realtime ∧ children.cpu = .ok cpu ∧
        tree = ⟨{ Node.root with realtime, cpu, frame }, children⟩ := by
  obtain ⟨accepted, children, realtime, cpu, within, sumRealtime, sumCpu, marking⟩ :=
    build_marks built
  refine ⟨accepted, children, realtime, cpu, tree.root.frame, within, sumRealtime, sumCpu, ?_⟩
  rw [markFrameThread] at marking
  split at marking
  · split at marking
    · cases marking
    · cases marking
      rfl
  · cases marking
    rfl

/-- The root is marked just where a child makes frames, which then is the only child. -/
theorem rootFrame_of_build {events : List Event} {tree : CallTree}
    (built : build events = .ok tree) :
    (tree.root.frame = true ↔ ∃ child ∈ tree.children.tops, child.frame = true) ∧
      (tree.root.frame = true → tree.children.tops.length = 1) := by
  obtain ⟨_, children, _, _, _, _, _, marking⟩ := build_marks built
  rw [markFrameThread] at marking
  split at marking
  · rename_i someFrame
    have makesFrames := List.any_eq_true.1 someFrame
    split at marking
    · cases marking
    · rename_i few
      cases marking
      refine ⟨⟨fun _ => makesFrames, fun _ => rfl⟩, fun _ => ?_⟩
      obtain ⟨child, member, _⟩ := makesFrames
      exact Nat.le_antisymm (Nat.not_lt.1 few) (List.length_pos_of_mem member)
  · rename_i noFrame
    cases marking
    refine ⟨⟨nofun, fun makesFrames => ?_⟩, nofun⟩
    exact absurd (List.any_eq_true.2 makesFrames) noFrame

theorem build_eq_ok {events : List Event} {tree : CallTree} (built : build events = .ok tree) :
    OpenPath.check [] 0 events = .ok () ∧
      Forest.mergeInto Node.absorbSingle .nil (.ofEvents events) = .ok tree.children ∧
      tree.children.realtime = .ok tree.root.realtime ∧ tree.children.cpu = .ok tree.root.cpu ∧
      tree.root.level = -1 := by
  obtain ⟨accepted, _, _, _, _, merged, sumRealtime, sumCpu, rfl⟩ := build_steps built
  exact ⟨accepted, merged, sumRealtime, sumCpu, rfl⟩

/-- Every built tree has the root's name. -/
theorem name_of_build {events : List Event} {tree : CallTree} (built : build events = .ok tree) :
    tree.root.name = Node.rootName := by
  obtain ⟨_, _, _, _, _, _, _, _, rfl⟩ := build_steps built
  rfl

section Built

variable {events : List Event} {tree : CallTree}

theorem distinct_of_build (built : build events = .ok tree) : tree.children.Distinct :=
  Forest.distinct_of_mergeInto Node.keeps_name.absorbSingle (build_eq_ok built).2.1

theorem paths_ofEvents (accepted : OpenPath.check [] 0 events = .ok ()) :
    ((Forest.ofEvents events).located []).map (·.1) = (Call.ofEvents events).map (·.path) := by
  rw [Forest.located_ofEvents accepted, List.map_map]
  rfl

/-- The node of a path is its first event with the others absorbed. -/
theorem combined_of_build (built : build events = .ok tree) {place : CallPath × Node}
    (member : place ∈ tree.children.located []) :
    Combined Node.absorbSingle ((Call.along events place.1).map .ofEvent) [place.2] := by
  obtain ⟨accepted, merged, _⟩ := build_eq_ok built
  have combined := Forest.combined_of_mergeInto Node.keeps_name.absorbSingle merged place.1
  rw [(distinct_of_build built).nodesAt_eq member, Forest.nodesAt,
    Forest.located_ofEvents accepted, List.filter_map, List.map_map] at combined
  rw [Call.along, List.map_map]
  exact combined

/-- What absorbing leaves alone a node has from the first event of its path. -/
theorem kept_of_build (built : build events = .ok tree) {β : Type} {observe : Node → β}
    (keeps : Keeps Node.absorb observe) {place : CallPath × Node}
    (member : place ∈ tree.children.located []) :
    ∃ first rest, Call.along events place.1 = first :: rest ∧
      observe place.2 = observe (.ofEvent first) := by
  obtain ⟨node, others, along, done⟩ := (combined_of_build built member).exists_first
  obtain ⟨first, rest, alongEvents, rfl, _⟩ := List.map_eq_cons_iff.1 along
  exact ⟨first, rest, alongEvents, keeps.absorbSingle.foldlM done⟩

/-- Every total of a node is the sum over the events of its path. -/
theorem quantity_of_build (built : build events = .ok tree) {quantity : Node → Nat}
    (adds : Adds Node.absorb quantity quantity) {place : CallPath × Node} (member : place ∈ tree.children.located []) :
    quantity place.2 =
      ((Call.along events place.1).map fun event => quantity (.ofEvent event)).sum := by
  have sum := (combined_of_build built member).sum_eq adds.absorbSingle
  simpa [Function.comp_def] using sum

/-- Siblings are in the order in which their paths first occur. -/
theorem siblings_of_build (built : build events = .ok tree) (path : CallPath) :
    (((tree.children.located []).map (·.1)).filter fun other => other.dropLast = path) =
      (((Call.ofEvents events).map (·.path)).filter fun other => other.dropLast = path).eraseDups := by
  obtain ⟨accepted, merged, _⟩ := build_eq_ok built
  rw [Forest.siblings_of_mergeInto Node.keeps_name.absorbSingle merged, paths_ofEvents accepted]

/-- The paths of a built tree are those of the events. -/
theorem mem_paths_of_build (built : build events = .ok tree) (path : CallPath) :
    path ∈ (tree.children.located []).map (·.1) ↔
      path ∈ (Call.ofEvents events).map (·.path) := by
  obtain ⟨accepted, merged, _⟩ := build_eq_ok built
  rw [Forest.mem_paths_of_mergeInto Node.keeps_name.absorbSingle merged, paths_ofEvents accepted]

/-- A node is at the level of its events, one less than its path is long. -/
theorem level_of_build (built : build events = .ok tree) {place : CallPath × Node}
    (member : place ∈ tree.children.located []) : place.2.level = place.1.length - 1 := by
  obtain ⟨first, rest, along, kept⟩ := kept_of_build built Node.keeps_level member
  have inAlong : first ∈ Call.along events place.1 := by
    rw [along]
    exact List.mem_cons_self
  obtain ⟨call, ofPath, rfl⟩ := List.mem_map.1 inAlong
  obtain ⟨inList, path⟩ := List.mem_filter.1 ofPath
  obtain ⟨depth, level, length⟩ :=
    Call.length_path_of_mem_after (build_eq_ok built).1 OpenPath.surrounds_nil inList
  rw [of_decide_eq_true path] at length
  rw [kept, length]
  show call.event.level.toInt = _
  omega

/-- The outermost trees of an accepted list are its events at level zero. -/
theorem tops_ofEvents (accepted : OpenPath.check [] 0 events = .ok ()) :
    (Forest.ofEvents events).tops = (events.filter fun event => event.level = 0).map .ofEvent := by
  have calls := Call.map_event_ofEvents events
  rw [← Forest.under_empty, Forest.under_eq_filter, Forest.located_ofEvents accepted,
    List.filter_map, List.map_map]
  conv => rhs; rw [← calls, List.filter_map, List.map_map]
  apply congrArg (List.map _)
  apply List.filter_congr
  intro call member
  obtain ⟨depth, level, length⟩ :=
    Call.length_path_of_mem_after accepted OpenPath.surrounds_nil member
  rw [Bool.eq_iff_iff]
  simp only [decide_eq_true_eq, Function.comp_apply, ← List.length_eq_zero_iff,
    ← Int32.toInt_inj, List.length_dropLast, length, level]
  show _ ↔ (depth : Int) = 0
  omega

/-- The totals of the outermost merged nodes are those of the outermost events. -/
theorem sum_tops_of_merged (accepted : OpenPath.check [] 0 events = .ok ())
    {children : Forest Node}
    (merged : Forest.mergeInto Node.absorbSingle .nil (.ofEvents events) = .ok children)
    {quantity : Node → Nat} (adds : Adds Node.absorb quantity quantity) :
    (children.tops.map quantity).sum =
      ((events.filter fun event => event.level = 0).map fun event =>
        quantity (.ofEvent event)).sum := by
  have sum := Forest.sum_under_mergeInto Node.keeps_name.absorbSingle adds.absorbSingle merged []
  rw [Forest.under_empty, Forest.under_empty, Forest.under_empty, tops_ofEvents accepted] at sum
  simpa [Forest.tops, Function.comp_def] using sum

/-- The totals of the outermost nodes are those of the outermost events. -/
theorem sum_tops_of_build (built : build events = .ok tree) {quantity : Node → Nat}
    (adds : Adds Node.absorb quantity quantity) :
    (tree.children.tops.map quantity).sum =
      ((events.filter fun event => event.level = 0).map fun event =>
        quantity (.ofEvent event)).sum :=
  sum_tops_of_merged (build_eq_ok built).1 (build_eq_ok built).2.1 adds

/-- The tree of an accepted event list is the trie of its call paths. -/
theorem build_isCallTrie (built : build events = .ok tree) : tree.IsCallTrie events where
  places := {
    distinct := (distinct_of_build built).nodup_paths
    mem_iff := mem_paths_of_build built
    level := fun _ member => level_of_build built member }
  siblings := siblings_of_build built
  count := fun place member => by
    rw [quantity_of_build built Node.adds_count member]
    simp [Node.ofEvent]
  realtime := fun _ member => quantity_of_build built Node.adds_realtime member
  cpu := fun _ member => quantity_of_build built Node.adds_cpu member
  rootLevel := (build_eq_ok built).2.2.2.2
  rootRealtime := by
    obtain ⟨_, _, realtime, _⟩ := build_eq_ok built
    rw [(Checked.sum_eq_ok_iff.1 realtime).2, Checked.total_eq_sum]
    exact sum_tops_of_build built Node.adds_realtime
  rootCpu := by
    obtain ⟨_, _, _, cpu, _⟩ := build_eq_ok built
    rw [(Checked.sum_eq_ok_iff.1 cpu).2, Checked.total_eq_sum]
    exact sum_tops_of_build built Node.adds_cpu

end Built

/-- Namesakes at two levels, interleaved with other calls. -/
def interleaved : List Event :=
  [.plain "frame" 0 0 90, .plain "load" 1 10 20, .plain "draw" 1 20 50, .plain "load" 1 50 80,
    .plain "parse" 2 60 70, .plain "frame" 0 100 150, .plain "draw" 1 110 130]

theorem build_isCallTrie_interleaved :
    ∃ tree, build interleaved = .ok tree ∧ tree.IsCallTrie interleaved :=
  ⟨_, rfl, build_isCallTrie rfl⟩

end CallTree

end CallProfiler
