import CallProfiler.Proofs.Analysis
import Mathlib.Data.List.Count

/-!
# Frames of a thread

Frames are read off a merged tree: the root is marked if an outermost node makes frames, and the
number of frames is what was added up in that node. A merged node has the flag of its first event,
so it is the first outermost event that decides, and with it all others count as frames.
`frames_of_build` says when the root and the number of frames are what the events say themselves,
which is where no name has outermost events of both kinds.
-/

namespace CallProfiler

namespace Event

/-- The outermost events of a list. -/
def outermost (events : List Event) : List Event := events.filter fun event => event.level = 0

/-- Of the outermost events of a name all are frames or none is. -/
def FramesAgree (events : List Event) : Prop :=
  ∀ event ∈ outermost events, ∀ other ∈ outermost events,
    event.name = other.name → event.frame = other.frame

end Event

open Event

/-- The full tree of a profile is the given one, mitigated or not. -/
def ThreadProfile.Shows (profile : ThreadProfile) (tree : CallTree) : Prop :=
  profile.full = tree ∨ ∃ calibration, tree.mitigated calibration = .ok profile.full

namespace CallTree

/-- A tree is marked if an outermost event is a frame, and then as many frames are counted as
there are such events. -/
structure CountsFrames (tree : CallTree) (events : List Event) : Prop where
  root : tree.root.frame = true ↔ ∃ event ∈ outermost events, event.frame = true
  count : ∀ profile : ThreadProfile, profile.Shows tree → profile.isFrameThread = true →
    profile.frameCount = (outermost events).countP (·.frame)

/-- A tree is marked if its first outermost event is a frame, and then all outermost events are
counted as frames. -/
structure FramedBy (tree : CallTree) (events : List Event) : Prop where
  root : tree.root.frame = true ↔ ∃ first ∈ (outermost events).head?, first.frame = true
  frameNode : tree.frameNode?.isSome = tree.root.frame
  analyzed : ∀ id calibration mitigate profile,
    analyzeThread id events calibration mitigate = .ok profile → profile.Shows tree
  profile : ∀ profile : ThreadProfile, profile.Shows tree →
    profile.isFrameThread = tree.root.frame ∧
      profile.frameCount = if tree.root.frame then (outermost events).length else 0
  counts : tree.CountsFrames events ↔ FramesAgree events

section Built

variable {events : List Event} {tree : CallTree}

/-- The outermost nodes are the outermost events, brought together by their names. -/
theorem grouped_tops_of_build (built : build events = .ok tree) :
    Grouped Node.absorbSingle ((outermost events).map .ofEvent) tree.children.tops := by
  obtain ⟨accepted, merged, _⟩ := build_eq_ok built
  have grouped := Forest.grouped_of_mergeInto Node.keeps_name.absorbSingle merged []
  rwa [Forest.under_empty, Forest.under_empty, tops_ofEvents accepted] at grouped

/-- The first outermost node has the flag of the first outermost event. -/
theorem head?_tops_of_build (built : build events = .ok tree) :
    tree.children.tops.head?.map (·.frame) = (outermost events).head?.map (·.frame) := by
  rw [(grouped_tops_of_build built).head?_map_eq Node.keeps_frame.absorbSingle, List.head?_map,
    Option.map_map]
  rfl

/-- The calls of the outermost nodes are the outermost events. -/
theorem sum_calls_of_build (built : build events = .ok tree) :
    (tree.children.tops.map (·.count)).sum = (outermost events).length := by
  rw [sum_tops_of_build built Node.adds_count, outermost]
  simp [Node.ofEvent]

/-- A marked tree has one outermost node, which makes frames and has all outermost calls. -/
theorem tops_of_marked (built : build events = .ok tree) (marked : tree.root.frame = true) :
    ∃ node, tree.children.tops = [node] ∧ node.frame = true ∧
      node.count = (outermost events).length := by
  obtain ⟨someFrame, alone⟩ := rootFrame_of_build built
  obtain ⟨node, only⟩ := List.length_eq_one_iff.1 (alone marked)
  obtain ⟨child, member, frame⟩ := someFrame.1 marked
  rw [only] at member
  obtain rfl := List.mem_singleton.1 member
  have calls := sum_calls_of_build built
  rw [only] at calls
  exact ⟨child, only, frame, by simpa using calls⟩

/-- The first outermost event decides whether a tree is marked. -/
theorem root_iff_first (built : build events = .ok tree) :
    tree.root.frame = true ↔ ∃ first ∈ (outermost events).head?, first.frame = true := by
  have firstFlag := head?_tops_of_build built
  constructor
  · intro marked
    obtain ⟨node, only, frame, _⟩ := tops_of_marked built marked
    rw [only, List.head?_cons, Option.map_some, frame] at firstFlag
    obtain ⟨first, isFirst, flagged⟩ := Option.map_eq_some_iff.1 firstFlag.symm
    exact ⟨first, isFirst, flagged⟩
  · rintro ⟨first, isFirst, flagged⟩
    rw [Option.mem_def.1 isFirst, Option.map_some, flagged] at firstFlag
    obtain ⟨node, isHead, frame⟩ := Option.map_eq_some_iff.1 firstFlag
    exact (rootFrame_of_build built).1.2 ⟨node, List.mem_of_mem_head? isHead, frame⟩

theorem isSome_frameNode? (built : build events = .ok tree) :
    tree.frameNode?.isSome = tree.root.frame := by
  rw [frameNode?]
  by_cases marked : tree.root.frame = true
  · obtain ⟨node, only, _⟩ := tops_of_marked built marked
    rw [if_pos marked, only, marked]
    rfl
  · rw [if_neg marked]
    rw [Bool.not_eq_true] at marked
    rw [marked]
    rfl

/-! ## Profiles -/

theorem shows_of_analyzeThread (built : build events = .ok tree) {id : UInt32}
    {calibration : Calibration} {mitigate : Bool} {profile : ThreadProfile}
    (done : analyzeThread id events calibration mitigate = .ok profile) : profile.Shows tree := by
  obtain ⟨_, tree', built', mitigating, _⟩ := stages_of_analyzeThread done
  rw [built] at built'
  cases built'
  split at mitigating
  · exact .inr ⟨calibration, mitigating⟩
  · cases mitigating
    exact .inl rfl

/-- Mitigation moves neither the mark nor the calls of the outermost nodes. -/
theorem frame_of_shows {profile : ThreadProfile} (shown : profile.Shows tree) :
    profile.full.root.frame = tree.root.frame ∧
      profile.full.children.tops.map (·.count) = tree.children.tops.map (·.count) := by
  rcases shown with same | ⟨calibration, mitigating⟩
  · rw [same]
    exact ⟨rfl, rfl⟩
  · have same := (retimed_of_mitigated mitigating).children
    refine ⟨?_, Forest.map_tops_of_untimed same fun _ => rfl⟩
    rcases mitigated_eq_ok mitigating with same | ⟨_, _, _, _, _, root⟩
    · rw [same]
    · rw [root]

/-- All outermost events of a marked tree are counted as frames. -/
theorem frameCount_of_shows (built : build events = .ok tree) {profile : ThreadProfile}
    (shown : profile.Shows tree) :
    profile.frameCount = if tree.root.frame then (outermost events).length else 0 := by
  obtain ⟨sameMark, sameCalls⟩ := frame_of_shows shown
  rw [ThreadProfile.frameCount, frameNode?, sameMark]
  by_cases marked : tree.root.frame = true
  · obtain ⟨node, only, _, calls⟩ := tops_of_marked built marked
    have head := congrArg List.head? sameCalls
    rw [only, List.head?_map] at head
    rw [if_pos marked, if_pos marked, head, ← calls]
    rfl
  · rw [if_neg marked, if_neg marked]
    rfl

/-! ## Where the flags agree -/

/-- Where the flags of namesakes agree, every outermost event has the flag of its node. -/
theorem exists_node_of_agree (built : build events = .ok tree) (agree : FramesAgree events)
    {event : Event} (member : event ∈ outermost events) :
    ∃ node ∈ tree.children.tops, node.frame = event.frame := by
  have isEvent : Node.ofEvent event ∈ (outermost events).map .ofEvent := List.mem_map_of_mem member
  obtain ⟨node, inTops, first, isFirst, sameName, sameFrame⟩ :=
    (grouped_tops_of_build built).exists_kept Node.keeps_frame.absorbSingle isEvent
  obtain ⟨other, inEvents, rfl⟩ := List.mem_map.1 isFirst
  exact ⟨node, inTops, sameFrame.trans (agree other inEvents event member sameName)⟩

/-- Frames are counted as the events say just where the flags of namesakes agree. -/
theorem countsFrames_iff (built : build events = .ok tree) :
    tree.CountsFrames events ↔ FramesAgree events := by
  constructor
  · rintro ⟨root, count⟩ event member other memberOther -
    by_cases marked : tree.root.frame = true
    · -- Any profile that shows the tree will do; the analysis itself may have come to none.
      have counted := count ⟨0, tree, tree, []⟩ (.inl rfl) marked
      rw [frameCount_of_shows built (.inl rfl), if_pos marked] at counted
      have all := List.countP_eq_length.1 counted.symm
      rw [all event member, all other memberOther]
    · have none : ∀ event ∈ outermost events, event.frame = false := by
        intro event member
        by_contra frame
        exact marked (root.2 ⟨event, member, Bool.not_eq_false _ ▸ frame⟩)
      rw [none event member, none other memberOther]
  · intro agree
    constructor
    · constructor
      · intro marked
        obtain ⟨first, isFirst, frame⟩ := (root_iff_first built).1 marked
        exact ⟨first, List.mem_of_mem_head? isFirst, frame⟩
      · rintro ⟨event, member, frame⟩
        obtain ⟨node, inTops, sameFrame⟩ := exists_node_of_agree built agree member
        exact (rootFrame_of_build built).1.2 ⟨node, inTops, sameFrame.trans frame⟩
    · intro profile shown marked
      have isMarked : tree.root.frame = true := (frame_of_shows shown).1 ▸ marked
      have all : ∀ event ∈ outermost events, event.frame = true := by
        intro event member
        obtain ⟨only, topsEq, frame, _⟩ := tops_of_marked built isMarked
        obtain ⟨node, inTops, sameFrame⟩ := exists_node_of_agree built agree member
        rw [topsEq] at inTops
        rw [← sameFrame, List.mem_singleton.1 inTops, frame]
      rw [frameCount_of_shows built shown, if_pos isMarked]
      exact (List.countP_eq_length.2 all).symm

/-- The first outermost event decides whether a thread makes frames, and all its outermost events
are counted as frames then. This is what the events say just where the flags of namesakes agree. -/
theorem frames_of_build (built : build events = .ok tree) : tree.FramedBy events where
  root := root_iff_first built
  frameNode := isSome_frameNode? built
  analyzed := fun _ _ _ _ done => shows_of_analyzeThread built done
  profile := fun _ shown => ⟨(frame_of_shows shown).1, frameCount_of_shows built shown⟩
  counts := countsFrames_iff built

end Built

/-- A call that is a frame only the second time. -/
def lateFrame : List Event :=
  [⟨"frame", 0, false, false, 0, 10, 0⟩, ⟨"frame", 0, true, false, 10, 20, 0⟩]

theorem frames_of_build_lateFrame :
    ∃ tree, build lateFrame = .ok tree ∧ tree.FramedBy lateFrame :=
  ⟨_, rfl, frames_of_build rfl⟩

/-- A frame among the outermost events need not mark the tree, and where it does, a call that is
no frame may be counted as one: the order of the two calls decides. -/
theorem not_countsFrames_lateFrame :
    (∃ tree, build lateFrame = .ok tree ∧ tree.root.frame = false ∧ tree.frameNode? = none ∧
      (∃ event ∈ outermost lateFrame, event.frame = true) ∧ ¬ tree.CountsFrames lateFrame) ∧
    ∃ tree, build lateFrame.reverse = .ok tree ∧ tree.root.frame = true ∧
      (outermost lateFrame.reverse).countP (·.frame) = 1 ∧
      (∀ profile : ThreadProfile, profile.full = tree → profile.frameCount = 2) ∧
      ¬ tree.CountsFrames lateFrame.reverse := by
  constructor
  · refine ⟨_, rfl, rfl, rfl, ⟨⟨"frame", 0, true, false, 10, 20, 0⟩, by decide, rfl⟩, ?_⟩
    intro counts
    have marked := counts.root.2 ⟨⟨"frame", 0, true, false, 10, 20, 0⟩, by decide, rfl⟩
    cases marked
  · refine ⟨_, rfl, rfl, rfl, ?_, ?_⟩
    · rintro ⟨_, _, _, _⟩ ⟨⟩
      rfl
    · intro counts
      have counted := counts.count ⟨0, _, ⟨.root, .nil⟩, []⟩ (.inl rfl) rfl
      cases counted

end CallTree

end CallProfiler
