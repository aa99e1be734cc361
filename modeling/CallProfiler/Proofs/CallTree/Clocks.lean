import CallProfiler.Proofs.CallTree.Branches
import CallProfiler.Proofs.CallTree.Building
import CallProfiler.Proofs.CallTree.Offences

/-!
# Clocks of merged nodes

An accepted list has no event of the process clock inside one of the thread clock. Merging looks
at no clock: a node has that of the first event of its call path, whichever clocks the others
were measured with. `clocks_of_build` says when the clocks of a tree can be relied on, which is
where all events of a path have one clock.
-/

namespace CallProfiler

open Event

/-- The events of a call path were all measured with one clock. -/
def Call.OneClock (events : List Event) (path : CallPath) : Prop :=
  ∀ event ∈ along events path, ∀ other ∈ along events path,
    event.processClock = other.processClock

namespace CallTree

/-- The clocks of a tree can be relied on: no node of the process clock is right below one of the
thread clock, and every node has the clock of all its events. -/
structure KeepsClocks (tree : CallTree) (events : List Event) : Prop where
  nested : ∀ branch ∈ tree.children.branches [], branch.node.processClock = false →
    ∀ child ∈ branch.children.tops, child.processClock = false
  measured : ∀ place ∈ tree.children.located [], ∀ event ∈ Call.along events place.1,
    event.processClock = place.2.processClock

/-- The clocks of a tree are those of the first events of its paths. -/
structure ClockedBy (tree : CallTree) (events : List Event) : Prop where
  first : ∀ place ∈ tree.children.located [], ∃ first rest,
    Call.along events place.1 = first :: rest ∧ place.2.processClock = first.processClock
  /-- Below a path of one clock the clocks nest as they do in the list. -/
  nested : ∀ branch ∈ tree.children.branches [], Call.OneClock events branch.path →
    branch.node.processClock = false → ∀ child ∈ branch.children.tops, child.processClock = false
  keeps : tree.KeepsClocks events ↔ ∀ path, Call.OneClock events path

end CallTree

/-! ## Callers -/

/-- An event with callers has the latest event of the level above right around it. -/
theorem exists_latest_of_callers {earlier : List Event} {level : Int}
    (nested : callers earlier level ≠ []) :
    ∃ later parent older, earlier = later ++ parent :: older ∧ 0 < level ∧
      latestAt? earlier (level - 1) = some parent ∧
      callers earlier level = callers older parent.level.toInt ++ [parent.name] := by
  induction earlier with
  | nil => exact absurd rfl nested
  | cons candidate older inductionHypothesis =>
      rw [callers] at nested ⊢
      rw [latestAt?_cons]
      by_cases caller : 0 < level ∧ candidate.level.toInt = level - 1
      · obtain ⟨positive, above⟩ := caller
        refine ⟨[], candidate, older, rfl, positive, if_pos above, ?_⟩
        rw [if_pos ⟨positive, above⟩, above]
      · rw [if_neg caller] at nested ⊢
        obtain ⟨later, parent, rest, parted, positive, latest, path⟩ := inductionHypothesis nested
        refine ⟨candidate :: later, parent, rest, by rw [parted, List.cons_append], positive, ?_,
          path⟩
        rw [if_neg fun above => caller ⟨positive, above⟩, latest]

/-- In an accepted list a call of the process clock is made by one of the process clock. -/
theorem Call.exists_caller {events : List Event} (accepted : OpenPath.check [] 0 events = .ok ())
    {call : Call} (member : call ∈ Call.ofEvents events) {around : CallPath} {name : String}
    (path : call.path = around ++ [name]) (nested : around ≠ [])
    (byProcess : call.event.processClock = true) :
    ∃ caller ∈ Call.ofEvents events, caller.path = around ∧ caller.event.processClock = true := by
  obtain ⟨before, later, rfl, ownPath⟩ := Call.exists_split member
  rw [List.append_nil] at ownPath
  have callersEq : callers before.reverse call.event.level.toInt = around :=
    (List.append_inj' (ownPath.symm.trans path) rfl).1
  rw [← callersEq] at nested
  obtain ⟨between, parent, older, order, positive, latest, names⟩ :=
    exists_latest_of_callers nested
  -- The last of the callers is the latest event of the level above: the check compared its clock.
  refine ⟨⟨around, parent⟩, ?_, rfl, ?_⟩
  · have beforeEq : before = older.reverse ++ parent :: between.reverse := by
      rw [← List.reverse_reverse before, order]
      simp
    have calling := Call.mem_ofEvents older.reverse (between.reverse ++ call.event :: later) parent
    rw [List.reverse_reverse, ← names, callersEq] at calling
    rw [beforeEq, List.append_assoc, List.cons_append]
    exact calling
  · have right := OpenPath.not_offence_of_check accepted
    have inPlace : InPlace before.reverse call.event := by
      by_contra outOfPlace
      exact right _ (.misplaced outOfPlace)
    by_contra byThread
    rw [Bool.not_eq_true] at byThread
    exact right _ (.clockChanged inPlace positive latest byProcess byThread)

/-! ## Nodes -/

namespace Forest

theorem Distinct.mem_located_child {forest : Forest Node} (distinct : forest.Distinct)
    {branch : Branch} (member : branch ∈ forest.branches []) {child : Node}
    (listed : child ∈ branch.children.tops) :
    (branch.path ++ [child.name], child) ∈ forest.located [] := by
  rw [← distinct.under_branch member, under_eq_filter] at listed
  obtain ⟨place, inPlace, rfl⟩ := List.mem_map.1 listed
  obtain ⟨located, parent⟩ := List.mem_filter.1 inPlace
  rw [← of_decide_eq_true parent, ← dropLast_concat_of_mem_located located]
  exact located

end Forest

namespace CallTree

variable {events : List Event} {tree : CallTree}

/-- The clock of a node is that of the first event of its path. -/
theorem clock_of_build (built : build events = .ok tree) {place : CallPath × Node}
    (member : place ∈ tree.children.located []) :
    ∃ first rest, Call.along events place.1 = first :: rest ∧
      place.2.processClock = first.processClock :=
  kept_of_build built Node.keeps_processClock member

/-- Where the events of a path have one clock, its node has it too. -/
theorem clock_of_oneClock (built : build events = .ok tree) {place : CallPath × Node}
    (member : place ∈ tree.children.located []) (oneClock : Call.OneClock events place.1)
    {event : Event} (along : event ∈ Call.along events place.1) :
    event.processClock = place.2.processClock := by
  obtain ⟨first, rest, alongEq, clock⟩ := clock_of_build built member
  rw [clock]
  exact oneClock event along first (alongEq ▸ List.mem_cons_self)

/-- Below a path of one clock the clocks nest. -/
theorem nested_of_oneClock (built : build events = .ok tree) {branch : Branch}
    (member : branch ∈ tree.children.branches []) (oneClock : Call.OneClock events branch.path)
    (byThread : branch.node.processClock = false) {child : Node}
    (listed : child ∈ branch.children.tops) : child.processClock = false := by
  by_contra byProcess
  rw [Bool.not_eq_false] at byProcess
  have located := Forest.mem_located_of_mem_branches member
  have childLocated := (distinct_of_build built).mem_located_child member listed
  obtain ⟨first, rest, alongEq, clock⟩ := clock_of_build built childLocated
  have inAlong : first ∈ Call.along events (branch.path ++ [child.name]) := by
    rw [alongEq]
    exact List.mem_cons_self
  obtain ⟨call, ofPath, rfl⟩ := List.mem_map.1 inAlong
  obtain ⟨called, path⟩ := List.mem_filter.1 ofPath
  have around : branch.path ≠ [] := by
    obtain ⟨inner, named⟩ := Forest.path_of_mem_located located
    dsimp only at named
    rw [named]
    simp
  -- The child has its clock from a call whose caller is one of the events of the node's own path.
  obtain ⟨caller, calling, callerPath, callerClock⟩ :=
    Call.exists_caller (build_eq_ok built).1 called (of_decide_eq_true path) around
      (clock.symm.trans byProcess)
  have callerAlong : caller.event ∈ Call.along events branch.path :=
    List.mem_map_of_mem (List.mem_filter.2 ⟨calling, decide_eq_true callerPath⟩)
  have same := clock_of_oneClock built located oneClock callerAlong
  rw [callerClock, byThread] at same
  cases same

/-- The clocks of a tree are those of the first events of its paths; they can be relied on just
where the events of every path have one clock. -/
theorem clocks_of_build (built : build events = .ok tree) : tree.ClockedBy events where
  first := fun _ member => clock_of_build built member
  nested := fun _ member oneClock byThread _ listed =>
    nested_of_oneClock built member oneClock byThread listed
  keeps := by
    constructor
    · intro keeps path event along other alongOther
      obtain ⟨call, ofPath, _⟩ := List.mem_map.1 along
      obtain ⟨called, callPath⟩ := List.mem_filter.1 ofPath
      have occurs : path ∈ (tree.children.located []).map (·.1) := by
        rw [mem_paths_of_build built, ← of_decide_eq_true callPath]
        exact List.mem_map_of_mem called
      obtain ⟨place, member, rfl⟩ := List.mem_map.1 occurs
      rw [keeps.measured place member event along, keeps.measured place member other alongOther]
    · intro oneClock
      constructor
      · intro branch member byThread child listed
        exact nested_of_oneClock built member (oneClock branch.path) byThread listed
      · intro place member event along
        exact clock_of_oneClock built member (oneClock place.1) along

/-- Work measured with one clock after the other, the second time with a part of it. -/
def mixedClocks : List Event :=
  [⟨"work", 0, false, false, 0, 10, 4⟩, ⟨"work", 0, false, true, 10, 20, 9⟩,
    ⟨"part", 1, false, true, 11, 15, 3⟩]

theorem clocks_of_build_mixedClocks :
    ∃ tree, build mixedClocks = .ok tree ∧ tree.ClockedBy mixedClocks :=
  ⟨_, rfl, clocks_of_build rfl⟩

/-- The list is accepted, but the clocks of its tree cannot be relied on: a node of the process
clock is below one of the thread clock, which has an event of the process clock itself. -/
theorem not_keepsClocks_mixedClocks :
    ∃ tree, build mixedClocks = .ok tree ∧
      (∃ branch ∈ tree.children.branches [], branch.node.processClock = false ∧
        ∃ child ∈ branch.children.tops, child.processClock = true) ∧
      (∃ place ∈ tree.children.located [], ∃ event ∈ Call.along mixedClocks place.1,
        event.processClock ≠ place.2.processClock) ∧
      ¬ tree.KeepsClocks mixedClocks := by
  refine ⟨_, rfl, ?_, ?_, ?_⟩
  · exact ⟨_, List.mem_cons_self, rfl, _, List.mem_cons_self, rfl⟩
  · exact ⟨_, List.mem_cons_self, ⟨"work", 0, false, true, 10, 20, 9⟩, by decide, by decide⟩
  · intro keeps
    have byThread := keeps.nested _ List.mem_cons_self rfl _ List.mem_cons_self
    cases byThread

end CallTree

end CallProfiler
